import Listing.Proofs.Relational.Fetching

/-!
# Stores that lack columns

A query that selects columns of a mapped entity loads its objects without the others. Apart from these
the store is the one of the query that selects nothing: it holds the same objects, and every attribute
of an object is the same, as long as keys tell objects apart (`Database.KeysApart`).

`Store.Lacks` relates two such stores. It is preserved by whatever fills them or sets an attribute,
as long as what is lacking stays what it would be, and so by loading relations
(`Database.loadTo_alike`). Such stores show the same objects from some rows (`Store.Lacks.graph`).
-/

namespace Listing

/-- Are the attributes `some` those of `all`, but for attributes that are hidden? -/
structure Attributes.Lacks (hidden : String × Attribute → Prop) (all some : Attributes) : Prop where
  kept : ∀ a ∈ some, a ∈ all
  lost : ∀ a ∈ all, a ∈ some ∨ hidden a ∧ ∀ b ∈ some, b.1 ≠ a.1

/-- Does a store hold the objects of another one, but for hidden attributes? -/
def Store.Lacks (hidden : String → String × Attribute → Prop) : Store → Store → Prop :=
  List.Forall₂ fun o o' => o'.1 = o.1 ∧ Attributes.Lacks (hidden o.1) o.2 o'.2

namespace Attributes

variable {hidden : String × Attribute → Prop} {all some : Attributes}

theorem lookup_isNone_iff {as : Attributes} {name : String} :
    (as.lookup name).isNone = true ↔ ∀ b ∈ as, b.1 ≠ name := by
  rw [Option.isNone_iff_eq_none, List.lookup_eq_none_iff]
  simp only [bne_iff_ne, ne_comm]

theorem Lacks.refl (hidden : String × Attribute → Prop) (all : Attributes) : Lacks hidden all all :=
  ⟨fun _ h => h, fun _ h => .inl h⟩

/-- **Filling attributes in** leaves out what is hidden. What is filled in has to agree with what has
been hidden before. -/
theorem Lacks.fill (h : Lacks hidden all some) {more less : Attributes}
    (hmore : Lacks hidden more less)
    (hfit : ∀ a ∈ more, ∀ b, hidden b → b.1 = a.1 → b = a) :
    Lacks hidden (all ++ more.filter fun a => (all.lookup a.1).isNone)
      (some ++ less.filter fun a => (some.lookup a.1).isNone) := by
  constructor
  · intro a ha
    rcases List.mem_append.1 ha with ha | ha
    · exact List.mem_append_left _ (h.kept a ha)
    · obtain ⟨ha, hnone⟩ := List.mem_filter.1 ha
      rw [lookup_isNone_iff] at hnone
      have hmem := hmore.kept a ha
      by_cases hall : ∀ b ∈ all, b.1 ≠ a.1
      · exact List.mem_append_right _ (List.mem_filter.2 ⟨hmem, lookup_isNone_iff.2 hall⟩)
      · simp only [not_forall, not_not] at hall
        obtain ⟨b, hb, hname⟩ := hall
        rcases h.lost b hb with hsome | ⟨hhidden, -⟩
        · exact absurd hname (hnone b hsome)
        · rw [← hfit a hmem b hhidden hname]
          exact List.mem_append_left _ hb
  · intro a ha
    rcases List.mem_append.1 ha with ha | ha
    · rcases h.lost a ha with hsome | ⟨hhidden, hnone⟩
      · exact .inl (List.mem_append_left _ hsome)
      · by_cases hless : ∀ b ∈ less, b.1 ≠ a.1
        · refine .inr ⟨hhidden, fun b hb => ?_⟩
          rcases List.mem_append.1 hb with hb | hb
          · exact hnone b hb
          · exact hless b (List.mem_filter.1 hb).1
        · simp only [not_forall, not_not] at hless
          obtain ⟨b, hb, hname⟩ := hless
          obtain rfl := hfit b (hmore.kept b hb) a hhidden hname.symm
          exact .inl (List.mem_append_right _ (List.mem_filter.2 ⟨hb, lookup_isNone_iff.2 hnone⟩))
    · obtain ⟨ha, hall⟩ := List.mem_filter.1 ha
      rw [lookup_isNone_iff] at hall
      have hsome : ∀ b ∈ some, b.1 ≠ a.1 := fun b hb => hall b (h.kept b hb)
      rcases hmore.lost a ha with hless | ⟨hhidden, hless⟩
      · exact .inl (List.mem_append_right _ (List.mem_filter.2 ⟨hless, lookup_isNone_iff.2 hsome⟩))
      · refine .inr ⟨hhidden, fun b hb => ?_⟩
        rcases List.mem_append.1 hb with hb | hb
        · exact hsome b hb
        · exact hless b (List.mem_filter.1 hb).1

/-- **Setting an attribute** sets it in both. -/
theorem Lacks.set (h : Lacks hidden all some) (name : String) (v : Attribute) :
    Lacks hidden (all.filter (fun b => b.1 != name) ++ [(name, v)])
      (some.filter (fun b => b.1 != name) ++ [(name, v)]) := by
  constructor
  · intro a ha
    rcases List.mem_append.1 ha with ha | ha
    · obtain ⟨ha, hne⟩ := List.mem_filter.1 ha
      exact List.mem_append_left _ (List.mem_filter.2 ⟨h.kept a ha, hne⟩)
    · exact List.mem_append_right _ ha
  · intro a ha
    rcases List.mem_append.1 ha with ha | ha
    · obtain ⟨ha, hne⟩ := List.mem_filter.1 ha
      rcases h.lost a ha with hsome | ⟨hhidden, hnone⟩
      · exact .inl (List.mem_append_left _ (List.mem_filter.2 ⟨hsome, hne⟩))
      · refine .inr ⟨hhidden, fun b hb => ?_⟩
        rcases List.mem_append.1 hb with hb | hb
        · exact hnone b (List.mem_filter.1 hb).1
        · obtain rfl := List.mem_singleton.1 hb
          exact (bne_iff_ne.1 hne).symm
    · exact .inl (List.mem_append_right _ ha)

/-- Attributes that cannot be hidden are there or not in both. -/
theorem Lacks.lookup_isSome (h : Lacks hidden all some) {name : String}
    (hname : ∀ a, hidden a → a.1 ≠ name) :
    (some.lookup name).isSome = (all.lookup name).isSome := by
  have hnone : (some.lookup name).isNone = (all.lookup name).isNone := by
    rw [Bool.eq_iff_iff, lookup_isNone_iff, lookup_isNone_iff]
    constructor
    · intro hsome a ha
      rcases h.lost a ha with hmem | ⟨hhidden, -⟩
      · exact hsome a hmem
      · exact hname a hhidden
    · exact fun hall a ha => hall a (h.kept a ha)
  simpa [Option.isSome_iff_ne_none, ← Option.not_isSome] using hnone

end Attributes

namespace Store

variable {hidden : String → String × Attribute → Prop} {s s' : Store}

/-! ## Changes of stores -/

theorem Lacks.refl (hidden : String → String × Attribute → Prop) (s : Store) : Lacks hidden s s :=
  List.forall₂_same.2 fun o _ => ⟨rfl, .refl _ o.2⟩

/-- **A change of an object** that hides attributes hides them in the store. -/
theorem Lacks.update (h : Lacks hidden s s') {key : String} {change change' : Attributes → Attributes}
    (hchange : ∀ as as', Attributes.Lacks (hidden key) as as' →
      Attributes.Lacks (hidden key) (change as) (change' as')) :
    Lacks hidden (s.update key change) (s'.update key change') := by
  induction h with
  | nil => exact .cons ⟨rfl, hchange _ _ (.refl _ [])⟩ .nil
  | @cons o o' s s' ho h ih =>
    obtain ⟨k, as⟩ := o
    obtain ⟨k', as'⟩ := o'
    obtain ⟨rfl, has⟩ : k' = k ∧ Attributes.Lacks (hidden k) as as' := ho
    unfold Store.update
    split
    · next hkey =>
      subst hkey
      exact .cons ⟨rfl, hchange _ _ has⟩ h
    · exact .cons ⟨rfl, has⟩ ih

theorem Lacks.fill (h : Lacks hidden s s') {key : String} {more less : Attributes}
    (hmore : Attributes.Lacks (hidden key) more less)
    (hfit : ∀ a ∈ more, ∀ b, hidden key b → b.1 = a.1 → b = a) :
    Lacks hidden (s.fill key more) (s'.fill key less) :=
  h.update fun _ _ has => has.fill hmore hfit

theorem Lacks.set (h : Lacks hidden s s') (key name : String) (v : Attribute) :
    Lacks hidden (s.set key name v) (s'.set key name v) :=
  h.update fun _ _ has => has.set name v

/-! ## What stores show -/

theorem Lacks.lookup (h : Lacks hidden s s') (key : String) :
    (s.lookup key = none ∧ s'.lookup key = none) ∨
      ∃ as as', s.lookup key = some as ∧ s'.lookup key = some as' ∧
        Attributes.Lacks (hidden key) as as' := by
  induction h with
  | nil => exact .inl ⟨rfl, rfl⟩
  | @cons o o' s s' ho h ih =>
    obtain ⟨k, as⟩ := o
    obtain ⟨k', as'⟩ := o'
    obtain ⟨rfl, has⟩ : k' = k ∧ Attributes.Lacks (hidden k) as as' := ho
    by_cases hkey : key = k'
    · subst hkey
      exact .inr ⟨as, as', List.lookup_cons_self, List.lookup_cons_self, has⟩
    · have hne : (key == k') = false := beq_eq_false_iff_ne.2 hkey
      rw [List.lookup_cons, List.lookup_cons, hne]
      exact ih

theorem Lacks.contains (h : Lacks hidden s s') (key : String) : s'.contains key = s.contains key := by
  unfold Store.contains
  rcases h.lookup key with ⟨hs, hs'⟩ | ⟨as, as', hs, hs', -⟩
  · rw [hs, hs']
  · rw [hs, hs', Option.isSome_some, Option.isSome_some]

theorem Lacks.isLoaded (h : Lacks hidden s s') {key name : String}
    (hname : ∀ a, hidden key a → a.1 ≠ name) : s'.isLoaded key name = s.isLoaded key name := by
  unfold Store.isLoaded
  rcases h.lookup key with ⟨hs, hs'⟩ | ⟨as, as', hs, hs', has⟩
  · rw [hs, hs']
  · rw [hs, hs']
    exact has.lookup_isSome hname

theorem Lacks.mem_neighbours (h : Lacks hidden s s')
    (hvalues : ∀ key a, hidden key a → a.2.keys = []) (key other : String) :
    other ∈ s'.neighbours key ↔ other ∈ s.neighbours key := by
  unfold neighbours
  rcases h.lookup key with ⟨hs, hs'⟩ | ⟨as, as', hs, hs', has⟩
  · rw [hs, hs']
  · rw [hs, hs', Option.getD_some, Option.getD_some, List.mem_flatMap, List.mem_flatMap]
    constructor
    · rintro ⟨a, ha, hother⟩
      exact ⟨a, has.kept a ha, hother⟩
    · rintro ⟨a, ha, hother⟩
      rcases has.lost a ha with hmem | ⟨hhidden, -⟩
      · exact ⟨a, hmem, hother⟩
      · rw [hvalues key a hhidden] at hother
        cases hother

theorem mem_found {s : Store} {keys : List String} {x : String} :
    x ∈ ((keys.flatMap s.neighbours).eraseDups.filter fun k => !keys.contains k) ↔
      (∃ k ∈ keys, x ∈ s.neighbours k) ∧ x ∉ keys := by
  simp

/-- Objects are reached alike in stores with the same neighbours. -/
theorem mem_reachable_congr (hn : ∀ key x, x ∈ s'.neighbours key ↔ x ∈ s.neighbours key) (n : Nat)
    {keys keys' : List String} (hkeys : ∀ x, x ∈ keys' ↔ x ∈ keys) (x : String) :
    x ∈ s'.reachable n keys' ↔ x ∈ s.reachable n keys := by
  induction n generalizing keys keys' with
  | zero => exact hkeys x
  | succ n ih =>
    have hfound : ∀ x, x ∈ ((keys'.flatMap s'.neighbours).eraseDups.filter
        fun k => !keys'.contains k) ↔ x ∈ ((keys.flatMap s.neighbours).eraseDups.filter
        fun k => !keys.contains k) := by
      intro x
      rw [mem_found, mem_found]
      simp only [hkeys, hn]
    have hempty : ((keys'.flatMap s'.neighbours).eraseDups.filter
        fun k => !keys'.contains k).isEmpty = ((keys.flatMap s.neighbours).eraseDups.filter
        fun k => !keys.contains k).isEmpty := by
      rw [Bool.eq_iff_iff, List.isEmpty_iff, List.isEmpty_iff, List.eq_nil_iff_forall_not_mem,
        List.eq_nil_iff_forall_not_mem]
      simp only [hfound]
    unfold reachable
    simp only [hempty]
    split
    · exact hkeys x
    · exact ih fun x => by rw [List.mem_append, List.mem_append, hkeys, hfound]

end Store

/-- Sorting by what related entries have in common keeps them related. -/
theorem forall₂_mergeSort {α β : Type} {R : α → β → Prop} {le : α → α → Bool} {le' : β → β → Bool}
    (hle : ∀ a b a' b', R a a' → R b b' → le a b = le' a' b') {as : List α} {bs : List β}
    (h : List.Forall₂ R as bs) : List.Forall₂ R (as.mergeSort le) (bs.mergeSort le') := by
  have hzip : ∀ p ∈ as.zip bs, R p.1 p.2 := fun p hp => (List.forall₂_iff_zip.1 h).2 hp
  have hleft : (as.zip bs).map Prod.fst = as := List.map_fst_zip h.length_eq.le
  have hright : (as.zip bs).map Prod.snd = bs := List.map_snd_zip h.length_eq.ge
  have hsort : ((as.zip bs).mergeSort fun p q => le p.1 q.1).map Prod.fst = as.mergeSort le := by
    rw [List.map_mergeSort (s := le) fun _ _ _ _ => rfl, hleft]
  have hsort' : ((as.zip bs).mergeSort fun p q => le p.1 q.1).map Prod.snd = bs.mergeSort le' := by
    rw [List.map_mergeSort (s := le') fun p hp q hq => hle _ _ _ _ (hzip p hp) (hzip q hq), hright]
  rw [← hsort, ← hsort', List.forall₂_map_left_iff, List.forall₂_map_right_iff, List.forall₂_same]
  exact fun p hp => hzip p ((List.mergeSort_perm ..).mem_iff.1 hp)

/-- Does a graph show the objects of another one, but for hidden attributes? -/
structure Graph.Lacks (hidden : String → String × Attribute → Prop) (g g' : Graph) : Prop where
  rows : g'.rows = g.rows
  objects : Store.Lacks hidden g.objects g'.objects

/-- **Stores that hold the same objects show the same objects.** -/
theorem Store.Lacks.graph {hidden : String → String × Attribute → Prop} {s s' : Store}
    (h : Lacks hidden s s') (hvalues : ∀ key a, hidden key a → a.2.keys = []) (rows : List String) :
    Graph.Lacks hidden (s.graph rows) (s'.graph rows) := by
  refine ⟨rfl, forall₂_mergeSort (fun a b a' b' ha hb => by rw [ha.1, hb.1]) ?_⟩
  have hreach : ∀ x, x ∈ s'.reachable s'.length rows.eraseDups ↔
      x ∈ s.reachable s.length rows.eraseDups := by
    rw [← h.length_eq]
    exact Store.mem_reachable_congr (h.mem_neighbours hvalues) _ fun _ => Iff.rfl
  refine List.rel_filter (fun o o' ho => ?_) h
  show (s.reachable s.length rows.eraseDups).contains o.1 = true ↔
    (s'.reachable s'.length rows.eraseDups).contains o'.1 = true
  rw [List.contains_iff_mem, List.contains_iff_mem, ho.1, hreach]

/-! ## Loading -/

/-- Is a column taken into the objects of an entity where columns of these names are selected? The
primary key always is, and all columns are if none is selected. -/
def Entity.takes (e : Entity) (names : List String) (c : Column) : Prop :=
  names = [] ∨ c.name ∈ e.key ∨ c.name ∈ names

/-- Is an attribute a column of an object that is not taken into it? -/
def Entity.hides (e : Entity) (db : Database) (names : List String) (key : String)
    (a : String × Attribute) : Prop :=
  ∃ row ∈ db.content.rowsOf e.table, e.keyOf row = key ∧
    ∃ c ∈ e.columns, ¬ e.takes names c ∧ a = (c.name, .value (row.get c.name))

/-- Do keys tell the objects of some entities apart? -/
def Database.KeysApart (db : Database) (es : List Entity) : Prop :=
  ∀ e ∈ es, ∀ f ∈ es, ∀ row ∈ db.content.rowsOf e.table, ∀ other ∈ db.content.rowsOf f.table,
    e.keyOf row = f.keyOf other → e = f ∧ row = other

namespace Entity

variable {e f : Entity} {db : Database} {names : List String}

theorem keys_of_hides {key : String} {a : String × Attribute} (h : e.hides db names key a) :
    a.2.keys = [] := by
  obtain ⟨row, -, -, c, -, -, rfl⟩ := h
  rfl

theorem mem_attributes {columns : List Column} {row : TableRow} {a : String × Attribute} :
    a ∈ e.attributes columns row ↔
      ∃ c ∈ e.columns, e.takes (columns.map (·.name)) c ∧ a = (c.name, .value (row.get c.name)) := by
  unfold attributes takes
  cases columns with
  | nil => simp [eq_comm]
  | cons d columns =>
    simp only [List.isEmpty_cons, Bool.false_eq_true, if_false, List.mem_map, List.mem_filter,
      Bool.or_eq_true, List.contains_iff_mem, List.any_eq_true, beq_iff_eq, List.map_eq_nil_iff,
      reduceCtorEq, false_or]
    constructor
    · rintro ⟨c, ⟨hc, htaken⟩, rfl⟩
      exact ⟨c, hc, htaken, rfl⟩
    · rintro ⟨c, hc, htaken, rfl⟩
      exact ⟨c, ⟨hc, htaken⟩, rfl⟩

variable {s s' : Store}

/-- What an object of a row lacks agrees with the columns of the row. -/
theorem eq_of_hides {es : List Entity} (hkeys : db.KeysApart es) (he : e ∈ es) (hf : f ∈ es)
    {row : TableRow} (hrow : row ∈ db.content.rowsOf f.table) {more : List Column}
    {a b : String × Attribute} (ha : a ∈ f.attributes more row)
    (hb : e.hides db names (f.keyOf row) b) (hname : b.1 = a.1) : b = a := by
  obtain ⟨other, hother, hkey, d, -, -, rfl⟩ := hb
  obtain ⟨rfl, rfl⟩ := hkeys e he f hf other hother row hrow hkey
  obtain ⟨c, -, -, rfl⟩ := mem_attributes.1 ha
  rw [show d.name = c.name from hname]

/-- **Filling columns of rows in** fills them in both stores. -/
theorem fillAll_lacks {es : List Entity} (hkeys : db.KeysApart es) (he : e ∈ es) (hf : f ∈ es)
    (more : List Column) {rows : List TableRow} (hrows : ∀ row ∈ rows, row ∈ db.content.rowsOf f.table)
    (h : Store.Lacks (e.hides db names) s s') :
    Store.Lacks (e.hides db names) (f.fillAll more rows s) (f.fillAll more rows s') := by
  unfold fillAll
  induction rows generalizing s s' with
  | nil => exact h
  | cons row rows ih =>
    refine ih (fun row hrow => hrows row (List.mem_cons_of_mem _ hrow)) (h.fill (.refl _ _) ?_)
    exact fun a ha b hb hname => eq_of_hides hkeys he hf (hrows row (List.mem_cons_self ..)) ha hb hname

/-- **Selected columns of rows** are those of the rows without the others. -/
theorem fillAll_selected {es : List Entity} (hkeys : db.KeysApart es) (he : e ∈ es)
    (columns : List Column)
    {rows : List TableRow} (hrows : ∀ row ∈ rows, row ∈ db.content.rowsOf e.table)
    (h : Store.Lacks (e.hides db (columns.map (·.name))) s s') :
    Store.Lacks (e.hides db (columns.map (·.name))) (e.fillAll [] rows s) (e.fillAll columns rows s') := by
  unfold fillAll
  induction rows generalizing s s' with
  | nil => exact h
  | cons row rows ih =>
    have hrow := hrows row (List.mem_cons_self ..)
    refine ih (fun row hrow => hrows row (List.mem_cons_of_mem _ hrow)) (h.fill ⟨?_, ?_⟩ ?_)
    · intro a ha
      obtain ⟨c, hc, -, rfl⟩ := mem_attributes.1 ha
      exact mem_attributes.2 ⟨c, hc, .inl rfl, rfl⟩
    · intro a ha
      obtain ⟨c, hc, -, rfl⟩ := mem_attributes.1 ha
      by_cases htaken : e.takes (columns.map (·.name)) c
      · exact .inl (mem_attributes.2 ⟨c, hc, htaken, rfl⟩)
      · refine .inr ⟨⟨row, hrow, rfl, c, hc, htaken, rfl⟩, fun b hb hname => htaken ?_⟩
        obtain ⟨d, -, hd, rfl⟩ := mem_attributes.1 hb
        simp only at hname
        unfold takes at hd ⊢
        rwa [hname] at hd
    · exact fun a ha b hb hname => eq_of_hides hkeys he he hrow ha hb hname

end Entity

namespace Database

variable {db : Database} {e₀ e : Entity} {names : List String} {s s' : Store}

theorem mem_schema {name : String} (h : db.entity? name = some e) : e ∈ db.schema :=
  List.mem_of_find?_eq_some h

/-- The parents of a relation await it in both stores. -/
theorem awaits_lacks (hkeys : db.KeysApart (e₀ :: db.schema)) (he : e ∈ e₀ :: db.schema)
    (hapart : ∀ r ∈ e₀.relations, ∀ c ∈ e₀.columns, c.name ≠ r.name)
    {r : Relation} (hr : r ∈ e.relations) {p : Parent} (hp : p.row ∈ db.content.rowsOf e.table)
    (h : Store.Lacks (e₀.hides db names) s s') : awaits e r s' p = awaits e r s p := by
  unfold awaits
  rw [h.isLoaded]
  rintro a ⟨row, hrow, hkey, c, hc, -, rfl⟩
  obtain ⟨rfl, -⟩ := hkeys e₀ (List.mem_cons_self ..) e he row hrow p.row hp hkey
  exact hapart r hr c hc

theorem asking_lacks {r : Relation} {parents : List Parent}
    (h : ∀ p ∈ parents, awaits e r s' p = awaits e r s p) :
    asking e r s' parents = asking e r s parents := by
  unfold asking
  rw [List.filter_congr h]

theorem mem_of_select {content : Content} {criterion : Criterion} {rows found : List TableRow}
    (h : criterion.select content rows = .ok found) : ∀ row ∈ found, row ∈ rows := by
  obtain ⟨-, rfl⟩ := Criterion.select_eq_ok_iff.1 h
  exact fun row hrow => (List.mem_filter.1 hrow).1

/-- Setting attributes of objects keeps what is lacking. -/
theorem lacks_foldl_set {α : Type} {hidden : String → String × Attribute → Prop} (as : List α)
    {key name : α → String} {v : α → Attribute} (h : Store.Lacks hidden s s') :
    Store.Lacks hidden (as.foldl (fun s a => s.set (key a) (name a) (v a)) s)
      (as.foldl (fun s a => s.set (key a) (name a) (v a)) s') := by
  induction as generalizing s s' with
  | nil => exact h
  | cons a as ih => exact ih (h.set _ _ _)

/-- Load the rows that are asked for along a relation into a store, and the relations beyond them up
to a depth, and refer the parents that await the relation to them. -/
def loadAlong (db : Database) (depth : Nat) (ls : List Loading) (e : Entity) (r : Relation)
    (last : Loading) (target : Entity) (askers waiting : List Parent) (store : Store) :
    Except Error Store := do
  let rows ← last.criterion.select db.content ((db.content.rowsOf target.table).filter fun other =>
    askers.any fun p => r.link.joins db.content p.row other)
  let store ← loadTo db depth (Loading.beyond r ls) target
    (rows.map fun row => Parent.mk row (!store.contains (target.keyOf row)))
    (target.fillAll ((Loading.endingAt r ls).flatMap (·.columns)) rows store)
  return waiting.foldl (fun s p => s.set (e.keyOf p.row) r.name
    (reference target r (db.relatedRows r last.criterion p.row))) store

/-- A relation is loaded alike if what is beyond it is. -/
theorem loadAlong_alike (hkeys : db.KeysApart (e₀ :: db.schema)) {depth : Nat} {ls : List Loading}
    {r : Relation} (last : Loading) {target : Entity} (htarget : target ∈ e₀ :: db.schema)
    (ih : ∀ {parents : List Parent} {s s' : Store},
      (∀ p ∈ parents, p.row ∈ db.content.rowsOf target.table) →
      Store.Lacks (e₀.hides db names) s s' →
      Alike (Store.Lacks (e₀.hides db names)) (db.loadTo depth (Loading.beyond r ls) target parents s)
        (db.loadTo depth (Loading.beyond r ls) target parents s'))
    (askers waiting : List Parent) (h : Store.Lacks (e₀.hides db names) s s') :
    Alike (Store.Lacks (e₀.hides db names)) (db.loadAlong depth ls e r last target askers waiting s)
      (db.loadAlong depth ls e r last target askers waiting s') := by
  refine Alike.bind (Alike.refl fun rows _ => rfl) ?_
  rintro rows rows' hrows rfl
  have hmem : ∀ row ∈ rows, row ∈ db.content.rowsOf target.table := fun row hrow =>
    (List.mem_filter.1 (mem_of_select hrows row hrow)).1
  simp only [h.contains]
  refine Alike.bind (ih ?_ ?_) fun store store' _ hstore => .ok (lacks_foldl_set _ hstore)
  · rw [List.forall_mem_map]
    exact hmem
  · exact Entity.fillAll_lacks hkeys (List.mem_cons_self ..) htarget _ hmem h

/-- **Relations are loaded alike into stores that lack columns.** -/
theorem loadTo_alike (hkeys : db.KeysApart (e₀ :: db.schema))
    (hapart : ∀ r ∈ e₀.relations, ∀ c ∈ e₀.columns, c.name ≠ r.name) (depth : Nat)
    (ls : List Loading) (he : e ∈ e₀ :: db.schema) {parents : List Parent}
    (hparents : ∀ p ∈ parents, p.row ∈ db.content.rowsOf e.table)
    (h : Store.Lacks (e₀.hides db names) s s') :
    Alike (Store.Lacks (e₀.hides db names)) (db.loadTo depth ls e parents s)
      (db.loadTo depth ls e parents s') := by
  induction depth generalizing ls e parents s s' with
  | zero => exact .ok h
  | succ depth ih =>
    unfold loadTo
    refine Alike.foldlM (fun s s' r hr h => ?_) h
    have hawaits : ∀ p ∈ parents, awaits e r s' p = awaits e r s p := fun p hp =>
      awaits_lacks hkeys he hapart hr (hparents p hp) h
    simp only [asking_lacks hawaits, List.filter_congr hawaits]
    cases (Loading.endingAt r ls).getLast? with
    | none => exact .ok h
    | some last =>
    cases htarget : db.entity? r.target with
    | none => exact .ok h
    | some target =>
    have htarget := List.mem_cons_of_mem e₀ (mem_schema htarget)
    have loaded := loadAlong_alike (e := e) hkeys last htarget
      (fun hparents h => ih (Loading.beyond r ls) htarget hparents h) (asking e r s parents)
      (parents.filter (awaits e r s)) h
    dsimp only
    -- Which rows are asked for, and whether that fails, does not depend on the stores.
    split
    · split
      · exact .error _
      · split
        · exact .error _
        · exact loaded
    · exact loaded

end Database

end Listing
