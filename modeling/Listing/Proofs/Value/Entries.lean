import Listing.Proofs.Number.Compare

/-!
# Looking up entries

What `Entries.insert` puts under a key is found there (`Entries.get?_insert_self`), and nothing else
changes for a key that means another thing (`Entries.get?_insert_of_ne`). Entries with distinct keys
are what they build (`Entries.ofPairs_eq_self`), and of pairs that agree on a key it is known what
their entries hold under it (`Entries.get?_ofPairs`).
-/

namespace Listing

namespace Value

/-- Is the value a text or an integer? Such values mean the same as keys only if they are the
same. -/
def IsName (k : Value) : Prop := (∃ s, k = .text s) ∨ ∃ n, k = .int n

theorem isName_text (s : String) : IsName (.text s) := .inl ⟨s, rfl⟩

theorem isName_int (n : Int) : IsName (.int n) := .inr ⟨n, rfl⟩

theorem IsName.equal_iff {a b : Value} (ha : a.IsName) (hb : b.IsName) :
    a.equal b = true ↔ a = b := by
  rcases hb with ⟨s, rfl⟩ | ⟨n, rfl⟩
  · exact equal_text
  rcases ha with ⟨t, rfl⟩ | ⟨m, rfl⟩
  · rw [text_equal, eq_comm]
  · rw [equal_int, decide_eq_true_iff, int.injEq]

theorem IsName.equal_self {a : Value} (h : a.IsName) : a.equal a = true := (h.equal_iff h).2 rfl

theorem IsName.equal_eq_false {a b : Value} (ha : a.IsName) (hb : b.IsName) (h : a ≠ b) :
    a.equal b = false := by
  rw [← Bool.not_eq_true, ha.equal_iff hb]
  exact h

end Value

namespace Entries

theorem get?_nil (k : Value) : get? [] k = none := rfl

theorem get?_cons (k v : Value) (es : Entries) (l : Value) :
    get? ((k, v) :: es) l = if k.equal l then some v else get? es l := by
  unfold get?
  rw [List.find?_cons]
  cases k.equal l <;> rfl

theorem get?_append (es fs : Entries) (k : Value) :
    get? (es ++ fs) k = (get? es k).or (get? fs k) := by
  induction es with
  | nil => rfl
  | cons e es ih =>
    obtain ⟨l, v⟩ := e
    rw [List.cons_append, get?_cons, get?_cons, ih]
    split <;> rfl

/-- A new key comes last. -/
theorem insert_new {es : Entries} {k : Value} (h : ∀ e ∈ es, e.1.equal k = false) (v : Value) :
    insert es k v = es ++ [(k, v)] := by
  induction es with
  | nil => rfl
  | cons e es ih =>
    obtain ⟨l, w⟩ := e
    have hl : l.equal k = false := h (l, w) (List.mem_cons_self ..)
    rw [insert, hl, if_neg Bool.false_ne_true, ih fun e he => h e (List.mem_cons_of_mem _ he)]
    rfl

theorem get?_insert_self {k : Value} (hk : k.equal k = true) (es : Entries) (v : Value) :
    get? (insert es k v) k = some v := by
  induction es with
  | nil => rw [insert, get?_cons, if_pos hk]
  | cons e es ih =>
    obtain ⟨l, w⟩ := e
    rw [insert]
    split
    · next hl => rw [get?_cons, if_pos hl]
    · next hl => rw [get?_cons, if_neg hl, ih]

/-- A key that means something else than `k`, even where it is spelled as another value. -/
def Apart (k l : Value) : Prop := ∀ w : Value, w.equal k = true → w.equal l = false

theorem get?_insert_of_apart {k l : Value} (hk : k.equal k = true) (h : Apart k l) (es : Entries)
    (v : Value) : get? (insert es k v) l = get? es l := by
  induction es with
  | nil => rw [insert, get?_cons, h k hk, if_neg Bool.false_ne_true]
  | cons e es ih =>
    obtain ⟨m, w⟩ := e
    rw [insert]
    split
    · next hm => simp only [get?_cons, h m hm, Bool.false_eq_true, if_false]
    · next hm => rw [get?_cons, get?_cons, ih]

theorem apart_text {s : String} {l : Value} (h : l ≠ .text s) : Apart (.text s) l := by
  intro w hw
  rw [Value.equal_text.1 hw, ← Bool.not_eq_true, Value.text_equal]
  exact h

theorem get?_insert_text_self (es : Entries) (s : String) (v : Value) :
    get? (insert es (.text s) v) (.text s) = some v :=
  get?_insert_self (Value.isName_text s).equal_self es v

theorem get?_insert_text_of_ne {s : String} {l : Value} (h : l ≠ .text s) (es : Entries)
    (v : Value) : get? (insert es (.text s) v) l = get? es l :=
  get?_insert_of_apart (Value.isName_text s).equal_self (apart_text h) es v

theorem get?_insert_of_ne {es : Entries} (hn : ∀ e ∈ es, e.1.IsName) {k l : Value}
    (hk : k.IsName) (hl : l.IsName) (h : k ≠ l) (v : Value) :
    get? (insert es k v) l = get? es l := by
  induction es with
  | nil => rw [insert, get?_cons, hk.equal_eq_false hl h, if_neg Bool.false_ne_true]
  | cons e es ih =>
    obtain ⟨m, w⟩ := e
    have hm : m.IsName := hn (m, w) (List.mem_cons_self ..)
    rw [insert]
    split
    · next heq =>
      obtain rfl := (hm.equal_iff hk).1 heq
      simp only [get?_cons, hk.equal_eq_false hl h, Bool.false_eq_true, if_false]
    · rw [get?_cons, get?_cons, ih fun e he => hn e (List.mem_cons_of_mem _ he)]

/-- Do the keys mean different things? -/
def Distinct (es : Entries) : Prop := es.Pairwise fun a b => a.1.equal b.1 = false

theorem foldl_insert {es fs : Entries} (h : Distinct (es ++ fs)) :
    fs.foldl (fun es p => insert es p.1 p.2) es = es ++ fs := by
  induction fs generalizing es with
  | nil => simp
  | cons f fs ih =>
    have hf : ∀ e ∈ es, e.1.equal f.1 = false := fun e he =>
      (List.pairwise_append.1 h).2.2 e he f (List.mem_cons_self ..)
    rw [List.foldl_cons, insert_new hf, ih (by simpa using h)]
    simp

/-- **Entries with distinct keys are what they build.** -/
theorem ofPairs_eq_self {es : Entries} (h : Distinct es) : ofPairs es = es :=
  @foldl_insert [] es h

/-- What is found under a key that is the same as itself only. -/
theorem get?_eq_some_of_mem {es : Entries} (hn : ∀ e ∈ es, e.1.IsName) (hd : Distinct es)
    {k v : Value} (h : (k, v) ∈ es) : get? es k = some v := by
  induction es with
  | nil => cases h
  | cons e es ih =>
    obtain ⟨l, w⟩ := e
    rw [get?_cons]
    rcases List.mem_cons.1 h with he | he
    · obtain ⟨rfl, rfl⟩ := Prod.mk.inj he
      rw [(hn (k, v) (List.mem_cons_self ..)).equal_self]
      rfl
    · rw [(List.pairwise_cons.1 hd).1 _ he]
      exact ih (fun e he => hn e (List.mem_cons_of_mem _ he)) (List.pairwise_cons.1 hd).2 he

theorem mem_of_get?_eq_some {es : Entries} {k v : Value} (h : get? es k = some v) :
    ∃ l, (l, v) ∈ es ∧ l.equal k = true := by
  obtain ⟨e, he, rfl⟩ := Option.map_eq_some_iff.1 h
  exact ⟨e.1, List.mem_of_find?_eq_some he, by simpa using List.find?_some he⟩

theorem mem_insert {es : Entries} {k v : Value} {e : Value × Value} (h : e ∈ insert es k v) :
    e ∈ es ∨ e = (k, v) ∨ ∃ l w, (l, w) ∈ es ∧ l.equal k = true ∧ e = (l, v) := by
  induction es with
  | nil =>
    rw [insert] at h
    exact .inr (.inl (List.mem_singleton.1 h))
  | cons f es ih =>
    obtain ⟨l, w⟩ := f
    rw [insert] at h
    split at h
    · next hl =>
      rcases List.mem_cons.1 h with rfl | h
      · exact .inr (.inr ⟨l, w, List.mem_cons_self .., hl, rfl⟩)
      · exact .inl (List.mem_cons_of_mem _ h)
    · rcases List.mem_cons.1 h with rfl | h
      · exact .inl (List.mem_cons_self ..)
      · rcases ih h with h | h | ⟨m, x, hm, h⟩
        · exact .inl (List.mem_cons_of_mem _ h)
        · exact .inr (.inl h)
        · exact .inr (.inr ⟨m, x, List.mem_cons_of_mem _ hm, h⟩)

/-- The same for keys that mean the same only if they are the same. -/
theorem mem_insert_of_isName {es : Entries} (hn : ∀ e ∈ es, e.1.IsName) {k v : Value}
    (hk : k.IsName) {e : Value × Value} (h : e ∈ insert es k v) : e ∈ es ∨ e = (k, v) := by
  rcases mem_insert h with h | h | ⟨l, w, hl, heq, rfl⟩
  · exact .inl h
  · exact .inr h
  · have hlk : l = k := ((hn (l, w) hl).equal_iff hk).1 heq
    exact .inr (by rw [hlk])

theorem keys_insert (es : Entries) (k v : Value) :
    keys (insert es k v) = keys es ∨
      (∀ e ∈ es, e.1.equal k = false) ∧ keys (insert es k v) = keys es ++ [k] := by
  induction es with
  | nil => exact .inr ⟨fun e he => absurd he List.not_mem_nil, rfl⟩
  | cons e es ih =>
    obtain ⟨l, w⟩ := e
    rw [insert]
    split
    · exact .inl rfl
    · next hl =>
      rcases ih with h | ⟨hnew, h⟩
      · exact .inl (by simpa [keys] using h)
      · refine .inr ⟨?_, by simpa [keys] using h⟩
        intro e he
        rcases List.mem_cons.1 he with rfl | he
        · simpa using hl
        · exact hnew e he

theorem distinct_iff_keys {es : Entries} :
    Distinct es ↔ (keys es).Pairwise fun a b => a.equal b = false := by
  rw [Distinct, keys, List.pairwise_map]

theorem Distinct.insert {es : Entries} (h : Distinct es) (k v : Value) :
    Distinct (insert es k v) := by
  rw [distinct_iff_keys] at h ⊢
  rcases keys_insert es k v with he | ⟨hnew, he⟩
  · rwa [he]
  · rw [he, List.pairwise_append]
    refine ⟨h, List.pairwise_singleton .., fun a ha b hb => ?_⟩
    obtain ⟨e, he, rfl⟩ := List.mem_map.1 ha
    rw [List.mem_singleton.1 hb]
    exact hnew e he

theorem Distinct.nodup_keys {es : Entries} (hd : Distinct es) (hn : ∀ e ∈ es, e.1.IsName) :
    (keys es).Nodup := by
  refine List.Pairwise.imp_of_mem ?_ (distinct_iff_keys.1 hd)
  rintro a b ha - hab rfl
  obtain ⟨e, he, rfl⟩ := List.mem_map.1 ha
  rw [(hn e he).equal_self] at hab
  cases hab

/-- Something is found exactly under the keys that are there. -/
theorem exists_get?_iff {es : Entries} (hn : ∀ e ∈ es, e.1.IsName) {k : Value} (hk : k.IsName) :
    (∃ v, es.get? k = some v) ↔ k ∈ keys es := by
  constructor
  · rintro ⟨v, hv⟩
    obtain ⟨l, hl, heq⟩ := mem_of_get?_eq_some hv
    rw [← ((hn _ hl).equal_iff hk).1 heq]
    exact List.mem_map_of_mem hl
  · intro hmem
    cases hget : es.get? k with
    | some v => exact ⟨v, rfl⟩
    | none =>
      obtain ⟨e, he, rfl⟩ := List.mem_map.1 hmem
      rw [get?, Option.map_eq_none_iff, List.find?_eq_none] at hget
      exact absurd (hn e he).equal_self (hget e he)

/-- The keys are those from before and the new one. -/
theorem mem_keys_insert {es : Entries} (hn : ∀ e ∈ es, e.1.IsName) {k : Value} (hk : k.IsName)
    (v l : Value) : l ∈ keys (insert es k v) ↔ l ∈ keys es ∨ l = k := by
  have hself : k ∈ keys (insert es k v) := by
    refine (exists_get?_iff ?_ hk).1 ⟨v, get?_insert_self hk.equal_self es v⟩
    intro e he
    rcases mem_insert_of_isName hn hk he with he | rfl
    · exact hn e he
    · exact hk
  rcases keys_insert es k v with h | ⟨-, h⟩
  · rw [h] at hself ⊢
    exact ⟨.inl, fun hl => hl.elim id fun hl => hl ▸ hself⟩
  · rw [h, List.mem_append, List.mem_singleton]

theorem insert_ne_nil (es : Entries) (k v : Value) : insert es k v ≠ [] := by
  cases es with
  | nil => exact List.cons_ne_nil _ _
  | cons e es =>
    obtain ⟨l, w⟩ := e
    rw [insert]
    split <;> exact List.cons_ne_nil _ _

theorem insert_insert {k : Value} (hk : k.equal k = true) (es : Entries) (v w : Value) :
    insert (insert es k v) k w = insert es k w := by
  induction es with
  | nil => simp [insert, hk]
  | cons e es ih =>
    obtain ⟨l, x⟩ := e
    by_cases hl : l.equal k = true
    · simp only [insert, if_pos hl]
    · simp only [insert, if_neg hl, ih]

/-! ## Entries that pairs build -/

/-- What is found after pairs have been inserted that agree on a key. -/
theorem get?_foldl_insert {ps : List (Value × Value)} (hps : ∀ p ∈ ps, p.1.IsName) {k v : Value}
    (hk : k.IsName) (hv : ∀ p ∈ ps, p.1 = k → p.2 = v) {es : Entries}
    (hes : ∀ e ∈ es, e.1.IsName) (h : get? es k = some v ∨ ∃ p ∈ ps, p.1 = k) :
    get? (ps.foldl (fun es p => insert es p.1 p.2) es) k = some v := by
  induction ps generalizing es with
  | nil =>
    rcases h with h | ⟨p, hp, -⟩
    · exact h
    · cases hp
  | cons p ps ih =>
    obtain ⟨l, w⟩ := p
    have hl : l.IsName := hps (l, w) (List.mem_cons_self ..)
    have hinsert : ∀ e ∈ insert es l w, e.1.IsName := by
      intro e he
      rcases mem_insert_of_isName hes hl he with he | rfl
      · exact hes e he
      · exact hl
    refine ih (fun p hp => hps p (List.mem_cons_of_mem _ hp))
      (fun p hp => hv p (List.mem_cons_of_mem _ hp)) hinsert ?_
    show get? (insert es l w) k = some v ∨ _
    by_cases hlk : l = k
    · subst hlk
      obtain rfl : w = v := hv (l, w) (List.mem_cons_self ..) rfl
      exact .inl (get?_insert_self hk.equal_self es w)
    · rw [get?_insert_of_ne hes hl hk hlk]
      refine h.imp id ?_
      rintro ⟨p, hp, hpk⟩
      rcases List.mem_cons.1 hp with rfl | hp
      · exact absurd hpk hlk
      · exact ⟨p, hp, hpk⟩

/-- **What is found among pairs** that agree on a key. -/
theorem get?_ofPairs {ps : List (Value × Value)} (hps : ∀ p ∈ ps, p.1.IsName) {k v : Value}
    (hk : k.IsName) (hv : ∀ p ∈ ps, p.1 = k → p.2 = v) (h : ∃ p ∈ ps, p.1 = k) :
    get? (ofPairs ps) k = some v :=
  get?_foldl_insert hps hk hv  (fun _ he => absurd he List.not_mem_nil) (.inr h)

theorem mem_foldl_insert {ps : List (Value × Value)} (hps : ∀ p ∈ ps, p.1.IsName) {es : Entries}
    (hes : ∀ e ∈ es, e.1.IsName) {e : Value × Value}
    (he : e ∈ ps.foldl (fun es p => insert es p.1 p.2) es) : e ∈ es ∨ e ∈ ps := by
  induction ps generalizing es with
  | nil => exact .inl he
  | cons p ps ih =>
    have hp := hps p (List.mem_cons_self ..)
    have hinsert : ∀ e ∈ insert es p.1 p.2, e ∈ es ∨ e = p := fun e he =>
      mem_insert_of_isName hes hp he
    have hnames : ∀ e ∈ insert es p.1 p.2, e.1.IsName := by
      intro e he
      rcases hinsert e he with he | rfl
      · exact hes e he
      · exact hp
    rcases ih (fun p hp => hps p (List.mem_cons_of_mem _ hp)) hnames he with he | he
    · rcases hinsert e he with he | rfl
      · exact .inl he
      · exact .inr (List.mem_cons_self ..)
    · exact .inr (List.mem_cons_of_mem _ he)

theorem mem_of_mem_ofPairs {ps : List (Value × Value)} (hps : ∀ p ∈ ps, p.1.IsName)
    {e : Value × Value} (he : e ∈ ofPairs ps) : e ∈ ps :=
  (mem_foldl_insert hps  (fun _ he => absurd he List.not_mem_nil) he).resolve_left
    List.not_mem_nil

theorem distinct_foldl_insert (ps : List (Value × Value)) {es : Entries} (h : Distinct es) :
    Distinct (ps.foldl (fun es p => insert es p.1 p.2) es) := by
  induction ps generalizing es with
  | nil => exact h
  | cons p ps ih => exact ih (h.insert p.1 p.2)

theorem distinct_ofPairs (ps : List (Value × Value)) : Distinct (ofPairs ps) :=
  distinct_foldl_insert ps List.Pairwise.nil

end Entries

end Listing
