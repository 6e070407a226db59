import Listing.Proofs.Value.Entries
import Listing.Registry

/-!
# Registries

What is put under a name is found there, and only there (`Registry.get?_insert`); of several things
under one name the last one is (`Registry.get?_insertAll`). A name that is there keeps its place:
`Registry.find?_names_insertAll`, which looks for the first name that passes a test.

Names that are there once stay so (`Registry.nodup_names_insertAll`), and things under such names are what
they make of the empty registry (`Registry.insertAll_eq_append`). To put a whole registry into another is to
put its things there one after the other (`Registry.insertAll_insertAll`), under other names as well
(`Registry.renamed_insertAll`).
-/

namespace Listing

namespace Registry

variable {α : Type} {name : String}

theorem get?_cons (n : String) (a : α) (r : Registry α) :
    get? ((n, a) :: r) name = if n = name then some a else r.get? name := by
  rw [get?, List.lookup_cons]
  by_cases h : n = name
  · rw [if_pos h, h, beq_self_eq_true]
  · rw [if_neg h, beq_false_of_ne (Ne.symm h)]
    rfl

theorem get?_isSome {r : Registry α} (h : name ∈ r.names) : (r.get? name).isSome := by
  induction r with
  | nil => cases h
  | cons e r ih =>
    rw [get?_cons]
    split
    · rfl
    next hne => exact ih ((List.mem_cons.1 h).resolve_left (Ne.symm hne))

theorem get?_insert (r : Registry α) (n : String) (a : α) :
    (r.insert n a).get? name = if n = name then some a else r.get? name := by
  induction r with
  | nil => rw [insert, get?_cons]
  | cons e r ih =>
    obtain ⟨m, b⟩ := e
    rw [insert]
    split
    · next hm =>
      rw [get?_cons, get?_cons, hm]
      split <;> rfl
    · next hm =>
      rw [get?_cons, get?_cons, ih]
      split
      · next hname => rw [if_neg fun h => hm (hname.trans h.symm)]
      · rfl

/-- Put things under names, one after the other. -/
def insertAll (r : Registry α) (things : Registry α) : Registry α :=
  things.foldl (fun r e => r.insert e.1 e.2) r

theorem insertAll_append (r things others : Registry α) :
    r.insertAll (things ++ others) = (r.insertAll things).insertAll others :=
  List.foldl_append

/-- What is found under a name: what was put there last, or else what was there before. -/
theorem get?_insertAll_eq (r things : Registry α) (name : String) :
    (r.insertAll things).get? name =
      ((things.reverse.find? fun e => e.1 = name).map Prod.snd).or (r.get? name) := by
  induction things generalizing r with
  | nil => rfl
  | cons e things ih =>
    rw [insertAll, List.foldl_cons, ← insertAll, ih, get?_insert, List.reverse_cons,
      List.find?_append, List.find?_singleton]
    cases things.reverse.find? fun e => e.1 = name with
    | some e => rfl
    | none => by_cases he : e.1 = name <;> simp [he]

/-- **What is put under a name last** is found there. -/
theorem get?_insertAll {before after : Registry α} {a : α} (h : ∀ e ∈ after, e.1 ≠ name)
    (r : Registry α) : (r.insertAll (before ++ (name, a) :: after)).get? name = some a := by
  have hafter : after.reverse.find? (fun e => e.1 = name) = none := by
    simpa [List.find?_eq_none] using h
  rw [get?_insertAll_eq, List.reverse_append, List.reverse_cons, List.append_assoc,
    List.find?_append, hafter, Option.none_or, List.singleton_append, List.find?_cons]
  simp

/-! ## Registries as maps, and parts of them -/

theorem get?_toMap (toValue : α → Value) (r : Registry α) (name : String) :
    Entries.get? (r.map fun e => (.text e.1, toValue e.2)) (.text name) =
      (r.get? name).map toValue := by
  induction r with
  | nil => rfl
  | cons e r ih =>
    rw [List.map_cons, Entries.get?_cons, Registry.get?, List.lookup_cons]
    by_cases h : name = e.1
    · subst h
      rw [if_pos (Value.equal_text.2 rfl), beq_self_eq_true]
      rfl
    · have hne : (Value.text e.1).equal (.text name) = false := by
        rw [Bool.eq_false_iff, Ne, Value.equal_text, Value.text.injEq]
        exact Ne.symm h
      rw [if_neg (by simp [hne]), ih, beq_false_of_ne h]
      rfl

variable (p : String → Bool)

/-- The first thing with a name that passes is what is found under the first such name. -/
theorem map_snd_find? (r : Registry α) :
    (r.find? fun e => p e.1).map Prod.snd = (r.names.find? p).bind r.get? := by
  induction r with
  | nil => rfl
  | cons e r ih =>
    obtain ⟨n, a⟩ := e
    have hnames : names ((n, a) :: r) = n :: names r := rfl
    cases hn : p n with
    | true =>
      rw [hnames, List.find?_cons_of_pos (p := p) hn, Option.bind_some, get?_cons, if_pos rfl,
        List.find?_cons_of_pos (by exact hn)]
      rfl
    | false =>
      rw [hnames, List.find?_cons_of_neg (by simp [hn]), List.find?_cons_of_neg (by simp [hn]), ih]
      refine Option.bind_congr fun m hm => ?_
      rw [get?_cons, if_neg]
      rintro rfl
      exact Bool.false_ne_true (hn.symm.trans (List.find?_some hm))

/-- A name that is there keeps its place, and another one comes last. -/
theorem find?_names_insert (r : Registry α) (n : String) (a : α) :
    (r.insert n a).names.find? p = (r.names ++ [n]).find? p := by
  induction r with
  | nil => rfl
  | cons e r ih =>
    obtain ⟨m, b⟩ := e
    rw [insert]
    split
    next hm =>
      subst hm
      show List.find? p (m :: names r) = List.find? p (m :: (names r ++ [m]))
      cases hp : p m <;> simp [hp]
    next =>
      show List.find? p (m :: names (insert r n a)) = List.find? p (m :: (names r ++ [n]))
      rw [List.find?_cons, List.find?_cons, ih]

/-- **The first name that passes**, of the names that were there and those that were put there. -/
theorem find?_names_insertAll (r things : Registry α) :
    (r.insertAll things).names.find? p = (r.names ++ things.names).find? p := by
  induction things generalizing r with
  | nil =>
    rw [show names ([] : Registry α) = [] from rfl, List.append_nil]
    rfl
  | cons e things ih =>
    rw [insertAll, List.foldl_cons, ← insertAll, ih, List.find?_append, find?_names_insert,
      ← List.find?_append, List.append_assoc]
    rfl

/-! ## Names that are there once -/

theorem insert_of_notMem {r : Registry α} {n : String} (h : n ∉ r.names) (a : α) :
    r.insert n a = r ++ [(n, a)] := by
  induction r with
  | nil => rfl
  | cons e r ih =>
    obtain ⟨hne, hr⟩ := not_or.1 (mt List.mem_cons.2 h)
    rw [insert, if_neg (Ne.symm hne), ih hr, List.cons_append]

theorem mem_insert {r : Registry α} {n : String} {a : α} {e : String × α} (h : e ∈ r.insert n a) :
    e = (n, a) ∨ e ∈ r := by
  induction r with
  | nil => exact .inl (List.mem_singleton.1 h)
  | cons f r ih =>
    rw [insert] at h
    split at h
    · next hn =>
      exact (List.mem_cons.1 h).imp (fun he => hn ▸ he) (List.mem_cons_of_mem _)
    · rcases List.mem_cons.1 h with rfl | h
      · exact .inr (List.mem_cons_self ..)
      · exact (ih h).imp_right (List.mem_cons_of_mem _)

theorem mem_names_insertAll {r things : Registry α} :
    name ∈ (r.insertAll things).names ↔ name ∈ r.names ∨ name ∈ things.names := by
  have hmem : ∀ ns : List String, name ∈ ns ↔ (ns.find? (· == name)).isSome = true := by simp
  rw [hmem, find?_names_insertAll, ← hmem, List.mem_append]

theorem mem_names_insert {r : Registry α} {n : String} {a : α} :
    name ∈ (r.insert n a).names ↔ name ∈ r.names ∨ name = n := by
  have hone : r.insert n a = r.insertAll [(n, a)] := rfl
  rw [hone, mem_names_insertAll]
  exact or_congr_right List.mem_singleton

theorem nodup_names_insert {r : Registry α} (h : r.names.Nodup) (n : String) (a : α) :
    (r.insert n a).names.Nodup := by
  induction r with
  | nil => exact List.nodup_cons.2 ⟨List.not_mem_nil, List.nodup_nil⟩
  | cons e r ih =>
    obtain ⟨m, b⟩ := e
    obtain ⟨hm, hr⟩ := List.nodup_cons.1 h
    rw [insert]
    split
    next hn => exact List.nodup_cons.2 ⟨hn ▸ hm, hr⟩
    next hn =>
      refine List.nodup_cons.2 ⟨fun hmem => ?_, ih hr⟩
      exact (mem_names_insert.1 hmem).elim hm hn

/-- Things under different new names are put at the end, as they are. -/
theorem insertAll_eq_append {r things : Registry α} (h : (r ++ things).names.Nodup) :
    r.insertAll things = r ++ things := by
  induction things generalizing r with
  | nil => exact (List.append_nil r).symm
  | cons e things ih =>
    have hname : e.1 ∉ r.names := by
      rw [names, List.map_append] at h
      exact fun hmem => (List.nodup_append.1 h).2.2 _ hmem _ (List.mem_cons_self ..) rfl
    have happend : r ++ e :: things = (r ++ [e]) ++ things := by simp
    show (r.insert e.1 e.2).insertAll things = r ++ e :: things
    rw [insert_of_notMem hname, happend]
    exact ih (happend ▸ h)

/-! ## Registries that are put into others -/

@[simp] theorem insert_insert (r : Registry α) (n : String) (a b : α) :
    (r.insert n b).insert n a = r.insert n a := by
  induction r with
  | nil => simp [insert]
  | cons e r ih =>
    obtain ⟨m, c⟩ := e
    by_cases hm : m = n <;> simp [insert, hm, ih]

theorem insert_comm {r : Registry α} {n m : String} (hn : n ∈ r.names) (hne : m ≠ n) (a b : α) :
    (r.insert m b).insert n a = (r.insert n a).insert m b := by
  induction r with
  | nil => cases hn
  | cons e r ih =>
    obtain ⟨l, c⟩ := e
    by_cases hl : l = n
    · subst hl
      simp [insert, Ne.symm hne]
    · have hr : n ∈ names r := (List.mem_cons.1 hn).resolve_left (Ne.symm hl)
      by_cases hlm : l = m <;> simp [insert, hl, hlm, hne, ih hr]

theorem insertAll_insert_comm {r things : Registry α} {n : String} (hn : n ∈ r.names)
    (h : n ∉ things.names) (a : α) :
    (r.insertAll things).insert n a = (r.insert n a).insertAll things := by
  induction things generalizing r with
  | nil => rfl
  | cons e things ih =>
    obtain ⟨hne, hrest⟩ := not_or.1 (mt List.mem_cons.2 h)
    show ((r.insert e.1 e.2).insertAll things).insert n a =
      ((r.insert n a).insert e.1 e.2).insertAll things
    rw [ih (mem_names_insert.2 (.inl hn)) hrest, insert_comm hn (Ne.symm hne)]

theorem insertAll_insert {s : Registry α} (h : s.names.Nodup) (r : Registry α) (n : String) (a : α) :
    r.insertAll (s.insert n a) = (r.insertAll s).insert n a := by
  induction s generalizing r with
  | nil => rfl
  | cons e s ih =>
    obtain ⟨m, b⟩ := e
    obtain ⟨hm, hs⟩ := List.nodup_cons.1 h
    rw [insert]
    split
    · next hmn =>
      subst hmn
      show (r.insert m a).insertAll s = ((r.insert m b).insertAll s).insert m a
      rw [insertAll_insert_comm (mem_names_insert.2 (.inr rfl)) hm, insert_insert]
    · exact ih hs (r.insert m b)

/-- **To put a registry into another is to put its things there**, in the order in which they were put
into it. -/
theorem insertAll_insertAll {s : Registry α} (h : s.names.Nodup) (r things : Registry α) :
    r.insertAll (s.insertAll things) = (r.insertAll s).insertAll things := by
  induction things generalizing s with
  | nil => rfl
  | cons e things ih =>
    show r.insertAll ((s.insert e.1 e.2).insertAll things) =
      ((r.insertAll s).insert e.1 e.2).insertAll things
    rw [ih (nodup_names_insert h ..), insertAll_insert h]

/-- Put things under other names. -/
def renamed (rename : String → String) (r : Registry α) : Registry α :=
  r.map fun e => (rename e.1, e.2)

theorem insertAll_renamed (r things : Registry α) (rename : String → String) :
    r.insertAll (things.renamed rename) =
      things.foldl (fun r e => r.insert (rename e.1) e.2) r :=
  List.foldl_map

theorem renamed_insert {rename : String → String} (h : Function.Injective rename) (r : Registry α)
    (n : String) (a : α) :
    (r.insert n a).renamed rename = (r.renamed rename).insert (rename n) a := by
  induction r with
  | nil => rfl
  | cons e r ih =>
    obtain ⟨m, b⟩ := e
    have hcons (c : α) (s : Registry α) (l : String) :
        renamed rename ((l, c) :: s) = (rename l, c) :: renamed rename s := rfl
    rw [hcons, insert, insert, ← ih]
    by_cases hm : m = n
    · rw [if_pos hm, if_pos (congrArg rename hm), hcons]
    · rw [if_neg hm, if_neg (h.ne hm), hcons]

theorem renamed_insertAll {rename : String → String} (h : Function.Injective rename)
    (r things : Registry α) :
    (r.insertAll things).renamed rename = (r.renamed rename).insertAll (things.renamed rename) := by
  induction things generalizing r with
  | nil => rfl
  | cons e things ih =>
    show ((r.insert e.1 e.2).insertAll things).renamed rename = _
    rw [ih, renamed_insert h]
    rfl

end Registry

end Listing
