import Listing.Proofs.Declaration.Codeless
import Listing.Proofs.Registry
import Listing.Proofs.Source.Ordering
import Listing.Proofs.Value.Entries

/-!
# Declared sort attributes

A declaration of sort attributes is read entry by entry. What one entry declares is
`Declaration.Declares`; the registry has for every name what the last entry with this name declares
(`Declaration.get?_sortKeys`).

What an attribute lists for a direction of a request has to be columns with directions
(`Orders.Listed`). All declarations are of this kind (`Declaration.sortKeys_readable`). An attribute that
is declared by its name, as another name of a column, by columns, or by columns with directions lists
the same columns for both directions of a request, in opposite directions
(`Declaration.sortKeys_turns`).
-/

namespace Listing

/-! ## Columns with directions -/

namespace Orders

/-- Columns in directions, written as orders. -/
def ofDirections (os : List (Value × Direction)) : Orders := os.map fun o => (o.1, .text o.2.text)

/-- Is the value a list of these columns with directions? -/
def Listed (v : Value) (os : Orders) : Prop :=
  ∃ items, v.items = .ok items ∧ items.mapM readOne = .ok os

variable {v : Value} {os : Orders}

/-- Is the value a list of columns with directions? -/
def Readable (v : Value) : Prop :=
  ∃ os, Listed v os ∧ ∀ o ∈ os, o.1.hashable = true ∧ ∃ direction, Direction.ofValue o.2 = .ok direction

theorem listed_toValue (os : Orders) : Listed os.toValue os := by
  refine ⟨_, rfl, ?_⟩
  rw [mapM_eq_ok_iff, List.forall₂_map_left_iff, List.forall₂_same]
  exact fun o _ => rfl

/-- Directions that are written are read. -/
theorem forall_mem_ofDirections {ds : List (Value × Direction)} (h : ∀ o ∈ ds, o.1.hashable = true) :
    ∀ o ∈ ofDirections ds,
      o.1.hashable = true ∧ ∃ direction, Direction.ofValue o.2 = .ok direction :=
  List.forall_mem_map.2 fun o ho => ⟨h o ho, o.2, Direction.ofValue_text o.2⟩

theorem readable_ofDirections {ds : List (Value × Direction)} (h : ∀ o ∈ ds, o.1.hashable = true) :
    Readable (ofDirections ds).toValue :=
  ⟨_, listed_toValue _, forall_mem_ofDirections h⟩

theorem mapM_readOrder_ofDirections (ds : List (Value × Direction)) :
    (ofDirections ds).mapM Collection.readOrder = .ok ds := by
  rw [mapM_eq_ok_iff, ofDirections, List.forall₂_map_left_iff, List.forall₂_same]
  exact fun o _ => Collection.readOrder_eq_ok_iff.2 ⟨rfl, Direction.ofValue_text o.2⟩

theorem exists_ofDirections {os : Orders} (h : ∀ o ∈ os, ∃ direction : Direction, o.2 = .text direction.text) :
    ∃ ds, os = ofDirections ds := by
  induction os with
  | nil => exact ⟨[], rfl⟩
  | cons o os ih =>
    obtain ⟨direction, hdirection⟩ := h o (List.mem_cons_self ..)
    obtain ⟨ds, rfl⟩ := ih fun o ho => h o (List.mem_cons_of_mem _ ho)
    refine ⟨(o.1, direction) :: ds, ?_⟩
    rw [ofDirections, ofDirections, List.map_cons, ← hdirection]

/-- **Orders that are listed are laid over others** one after the other. -/
theorem Listed.extend (h : Listed v os) (hos : ∀ o ∈ os, o.1.hashable = true) (es : Orders) :
    es.extend v = .ok (os.foldl (fun es o => Entries.insert es o.1 o.2) es) := by
  obtain ⟨items, hitems, hread⟩ := h
  rw [Orders.extend, hitems, ok_bind]
  clear hitems
  induction mapM_eq_ok_iff.1 hread generalizing es with
  | nil => rfl
  | @cons item o items os ho hrest ih =>
    rw [List.foldlM_cons, ho, ok_bind]
    dsimp only
    rw [insert, if_pos (hos o (List.mem_cons_self ..)), ok_bind]
    exact ih (fun o ho => hos o (List.mem_cons_of_mem _ ho)) _ (mapM_eq_ok_iff.2 hrest)

end Orders

namespace SortKey

variable {k : SortKey} {ds : List (Value × Direction)}

/-- Does the attribute list columns with directions for both directions of a request? -/
def Readable (k : SortKey) : Prop := ∀ descends, Orders.Readable (k.orders descends)

/-- Does the attribute list these columns for the ascending direction of a request, and the same ones in
the opposite directions for the descending one? -/
structure Turns (k : SortKey) (ds : List (Value × Direction)) : Prop where
  ascending : k.ascending = (Orders.ofDirections ds).toValue
  descending : k.descending = (Orders.ofDirections (ds.map fun o => (o.1, o.2.flip))).toValue
  hashable : ∀ o ∈ ds, o.1.hashable = true

/-- Lists that count as nothing are filled in. -/
theorem Readable.make {name : String} {ascending descending : Value}
    (ha : ascending.truthy = true → Orders.Readable ascending)
    (hd : descending.truthy = true → Orders.Readable descending) :
    (make (.text name) ascending descending).Readable := by
  have hown : ∀ direction : Direction,
      Orders.Readable (Orders.ofDirections [(.text name, direction)]).toValue := fun direction =>
    Orders.readable_ofDirections (List.forall_mem_singleton.2 rfl)
  intro descends
  cases descends with
  | false =>
    show Orders.Readable (if ascending.truthy then ascending else _)
    split
    · next h => exact ha h
    · exact hown .ascending
  | true =>
    show Orders.Readable (if descending.truthy then descending else _)
    split
    · next h => exact hd h
    · exact hown .descending

theorem Turns.make (hds : ∀ o ∈ ds, o.1.hashable = true) (hne : ds ≠ []) (name : Value) :
    (make name (Orders.ofDirections ds).toValue
      (Orders.ofDirections (ds.map fun o => (o.1, o.2.flip))).toValue).Turns ds := by
  cases ds with
  | nil => exact absurd rfl hne
  | cons o ds => exact ⟨rfl, rfl, hds⟩

/-- An attribute without columns is one by its own name. -/
theorem turns_own (name : String) :
    (SortKey.make (.text name) .null .null).Turns [(.text name, .ascending)] :=
  ⟨rfl, rfl, List.forall_mem_singleton.2 rfl⟩

end SortKey

namespace Declaration

/-! ## Entries -/

theorem named_readable {k : SortKey} (h : k.Readable) (name : String) : (named name k).Readable := by
  unfold named
  split
  · exact h
  · exact .make (fun _ => h false) fun _ => h true

theorem named_turns {k : SortKey} {ds : List (Value × Direction)} (h : k.Turns ds) (hne : ds ≠ [])
    (name : String) : (named name k).Turns ds := by
  unfold named
  split
  · exact h
  · rw [h.ascending, h.descending]
    exact .make h.hashable hne _

theorem flipped_ofDirections (ds : List (Value × Direction)) :
    flipped (Orders.ofDirections ds) = Orders.ofDirections (ds.map fun o => (o.1, o.2.flip)) := by
  rw [flipped, Orders.ofDirections, Orders.ofDirections, List.map_map, List.map_map]
  refine List.map_congr_left fun o _ => ?_
  obtain ⟨column, direction⟩ := o
  cases direction with
  | ascending =>
    have hne : (Value.text Direction.ascending.text).equal SortKey.desc = false := by
      rw [SortKey.desc, ← Bool.not_eq_true, Value.equal_text, Value.text.injEq]
      decide
    exact congrArg (Prod.mk column) (if_neg (ne_true_of_eq_false hne))
  | descending => exact congrArg (Prod.mk column) (if_pos (Value.equal_text.2 rfl))

theorem ordersOfEntries_ofDirections {es : Entries} (hkeys : ∀ e ∈ es, e.1.hashable = true)
    {os : Orders} (h : ordersOfEntries es = .ok os) :
    ∃ ds, os = Orders.ofDirections ds ∧ ∀ o ∈ ds, o.1.hashable = true := by
  induction es generalizing os with
  | nil =>
    obtain rfl := Except.ok.inj h
    exact ⟨[], rfl, nofun⟩
  | cons e es ih =>
    obtain ⟨column, v⟩ := e
    rw [ordersOfEntries] at h
    split at h
    · cases h
    · dsimp only [pure_bind] at h
      split at h
      · next hdirection =>
        obtain ⟨rest, hrest, h⟩ := bind_eq_ok_iff.1 h
        obtain rfl := Except.ok.inj h
        obtain ⟨ds, rfl, hds⟩ := ih (fun e he => hkeys e (List.mem_cons_of_mem _ he)) hrest
        obtain ⟨direction, hlower⟩ : ∃ d : Direction, Text.lower v.toText = d.text := by
          rcases List.mem_cons.1 (List.contains_iff_mem.1 hdirection) with hasc | hdesc
          · exact ⟨.ascending, hasc⟩
          · exact ⟨.descending, List.mem_singleton.1 hdesc⟩
        refine ⟨(column, direction) :: ds, by rw [hlower]; rfl, ?_⟩
        exact List.forall_mem_cons.2 ⟨hkeys _ (List.mem_cons_self ..), hds⟩
      · split at h <;> cases h

/-- **What a declaration lists** in a direction is columns in directions. -/
theorem orders_ofDirections (direction : Direction) {v : Value}
    (hkeys : ∀ es, v = .map es → ∀ e ∈ es, e.1.hashable = true) {os : Orders}
    (h : orders (.text direction.text) v = .ok os) :
    ∃ ds, os = Orders.ofDirections ds ∧ ∀ o ∈ ds, o.1.hashable = true := by
  have hitems : ∀ {columns : List Value}, ordersOfItems (.text direction.text) columns = .ok os →
      ∃ ds, os = Orders.ofDirections ds ∧ ∀ o ∈ ds, o.1.hashable = true := by
    intro columns h
    unfold ordersOfItems at h
    split at h
    · obtain rfl := Except.ok.inj h
      refine ⟨columns.map fun column => (.text column.toText, direction), ?_,
        List.forall_mem_map.2 fun _ _ => rfl⟩
      rw [Orders.ofDirections, List.map_map]
      rfl
    · cases h
  cases v with
  | text s =>
    obtain rfl := Except.ok.inj h
    exact ⟨[(.text s, direction)], rfl, List.forall_mem_singleton.2 rfl⟩
  | map es => exact ordersOfEntries_ofDirections (hkeys es rfl) h
  | list vs | tuple vs | set vs => exact hitems h
  | _ => cases h

/-- Can the keys of the map that the value may be, and those of the maps in it, be keys of maps? -/
def KeysHashable (v : Value) : Prop :=
  ∀ es, v = .map es → ∀ e ∈ es, e.1.hashable = true ∧
    ∀ es', e.2 = .map es' → ∀ e' ∈ es', e'.1.hashable = true

theorem KeysHashable.keys {v : Value} (h : KeysHashable v) :
    ∀ es, v = .map es → ∀ e ∈ es, e.1.hashable = true := fun es hes e he => (h es hes e he).1

theorem ascendingGroup_turns {name : String} {v : Value} {k : SortKey}
    (hkeys : ∀ es, v = .map es → ∀ e ∈ es, e.1.hashable = true) (h : ascendingGroup name v = .ok k) :
    ∃ ds, ds ≠ [] ∧ k.Turns ds := by
  obtain ⟨os, hos, h⟩ := bind_eq_ok_iff.1 h
  obtain rfl := Except.ok.inj h
  obtain ⟨ds, rfl, hds⟩ := orders_ofDirections .ascending hkeys hos
  rw [flipped_ofDirections]
  by_cases hne : ds = []
  · subst hne
    exact ⟨_, List.cons_ne_nil _ _, SortKey.turns_own name⟩
  · exact ⟨ds, hne, .make hds hne _⟩

theorem turns_readable {k : SortKey} {ds : List (Value × Direction)} (h : k.Turns ds) : k.Readable := by
  intro descends
  cases descends with
  | false =>
    show Orders.Readable k.ascending
    rw [h.ascending]
    exact Orders.readable_ofDirections h.hashable
  | true =>
    show Orders.Readable k.descending
    rw [h.descending]
    exact Orders.readable_ofDirections (List.forall_mem_map.2 h.hashable)

/-- A group that is no map of directions is turned around for the descending direction. -/
theorem sortGroup_turns {name : String} {v : Value} {k : SortKey}
    (hkeys : ∀ es, v = .map es → ∀ e ∈ es, e.1.hashable = true)
    (hbare : ∀ es, v = .map es →
      (es.all fun e => e.1.equal SortKey.asc || e.1.equal SortKey.desc) = false)
    (h : sortGroup name v = .ok k) : ∃ ds, ds ≠ [] ∧ k.Turns ds := by
  unfold sortGroup at h
  split at h
  · next es =>
    rw [if_neg (ne_true_of_eq_false (hbare es rfl))] at h
    exact ascendingGroup_turns hkeys h
  · exact ascendingGroup_turns hkeys h

theorem sortGroup_readable {name : String} {v : Value} {k : SortKey} (hkeys : KeysHashable v)
    (h : sortGroup name v = .ok k) : k.Readable := by
  unfold sortGroup at h
  split at h
  · next es =>
    split at h
    · obtain ⟨ascending, hascending, h⟩ := bind_eq_ok_iff.1 h
      obtain ⟨descending, hdescending, h⟩ := bind_eq_ok_iff.1 h
      obtain rfl := Except.ok.inj h
      have hunder : ∀ (direction : Direction) {os : Orders},
          ordersUnder es (.text direction.text) = .ok os → Orders.Readable os.toValue := by
        intro direction os hos
        unfold ordersUnder at hos
        split at hos
        · next v hv =>
          obtain ⟨l, hmem, -⟩ := Entries.mem_of_get?_eq_some hv
          obtain ⟨ds, rfl, hds⟩ := orders_ofDirections direction (hkeys es rfl _ hmem).2 hos
          exact Orders.readable_ofDirections hds
        · obtain rfl := Except.ok.inj hos
          exact @Orders.readable_ofDirections [] (List.forall_mem_nil _)
      exact .make (fun _ => hunder .ascending hascending) fun _ => hunder .descending hdescending
    · obtain ⟨ds, -, hk⟩ := ascendingGroup_turns hkeys.keys h
      exact turns_readable hk
  · obtain ⟨ds, -, hk⟩ := ascendingGroup_turns hkeys.keys h
    exact turns_readable hk

/-- What an entry with a key declares: an attribute under a name. -/
inductive Declares : Value → Value → String → SortKey → Prop
  | finished {entry : Value} {k : SortKey} (name : String) : SortKey.ofValue? entry = some k →
      Declares (.text name) entry name (named name k)
  | position {key : Value} (name : String) : key.isPosition = true →
      Declares key (.text name) name (named name (.make (.text name) .null .null))
  | target (name target : String) :
      Declares (.text name) (.text target) name (named name (.make (.text target) .null .null))
  | group {name : String} {entry : Value} {k : SortKey} : sortGroup name entry = .ok k →
      Declares (.text name) entry name (named name k)

/-- **What is put into a registry** for an entry is what it declares. -/
theorem declares_of_add {r r' : Registry SortKey} {key entry : Value}
    {group : Except Error (Registry SortKey)} (h : sortKind.add () r key entry group = .ok r') :
    ∃ name k, Declares key entry name k ∧ r' = r.insert name k := by
  unfold DeclarationKind.add at h
  split at h
  · next k name hfinished hkey =>
    obtain rfl := Except.ok.inj h
    cases key with
    | text s =>
      obtain rfl := Option.some.inj hkey
      exact ⟨s, _, .finished s hfinished, rfl⟩
    | _ => cases hkey
  · unfold DeclarationKind.unnamed at h
    split at h <;> cases h
  · next hkey =>
    have htext : ∀ {name : String}, key.text? = some name → key = .text name := by
      intro name hname
      cases key <;> cases hname
      rfl
    split at h
    · next hfunction => cases hfunction
    · split at h
      · next s _ name hname =>
        obtain rfl := Except.ok.inj h
        rw [htext hname]
        exact ⟨name, _, .target name _, rfl⟩
      · split at h
        · next hposition =>
          obtain rfl := Except.ok.inj h
          exact ⟨_, _, .position _ hposition, rfl⟩
        · exact absurd h bind_error_ne_ok
    · split at h
      · next name _ hname =>
        obtain ⟨k, hk, h⟩ := bind_eq_ok_iff.1 h
        obtain rfl := Except.ok.inj h
        rw [htext hname]
        exact ⟨name, _, .group hk, rfl⟩
      · exact absurd h bind_error_ne_ok
      · exact absurd h bind_error_ne_ok

/-- Does an entry declare an attribute by a name, by columns, or by columns with directions? A map of
the two directions of requests is none of these. -/
inductive OneSided : Value → Prop
  | name (s : String) : OneSided (.text s)
  | list (columns : List Value) : OneSided (.list columns)
  | tuple (columns : List Value) : OneSided (.tuple columns)
  | set (columns : List Value) : OneSided (.set columns)
  | directions {es : Entries} :
      (es.all fun e => e.1.equal SortKey.asc || e.1.equal SortKey.desc) = false →
      (∀ e ∈ es, e.1.hashable = true) → OneSided (.map es)

theorem Declares.turns {key entry : Value} {name : String} {k : SortKey} (h : Declares key entry name k)
    (hentry : OneSided entry) : ∃ ds, ds ≠ [] ∧ k.Turns ds := by
  have hnamed : ∀ {name : String} {k : SortKey}, (∃ ds, ds ≠ [] ∧ k.Turns ds) →
      ∃ ds, ds ≠ [] ∧ (named name k).Turns ds := by
    rintro name k ⟨ds, hne, hk⟩
    exact ⟨ds, hne, named_turns hk hne name⟩
  cases h with
  | finished _ hk => cases hentry <;> cases hk
  | position _ _ => exact hnamed ⟨_, List.cons_ne_nil _ _, SortKey.turns_own _⟩
  | target _ _ => exact hnamed ⟨_, List.cons_ne_nil _ _, SortKey.turns_own _⟩
  | group hk =>
    refine hnamed (sortGroup_turns (fun es hes => ?_) (fun es hes => ?_) hk)
    all_goals
      subst hes
      cases hentry
      assumption

theorem Declares.readable {key entry : Value} {name : String} {k : SortKey} (h : Declares key entry name k)
    (hkeys : KeysHashable entry) (hfinished : ∀ k, SortKey.ofValue? entry = some k → k.Readable) :
    k.Readable := by
  cases h with
  | finished _ hk => exact named_readable (hfinished _ hk) _
  | position _ _ => exact named_readable (turns_readable (SortKey.turns_own _)) _
  | target _ _ => exact named_readable (turns_readable (SortKey.turns_own _)) _
  | group hk => exact named_readable (sortGroup_readable hkeys hk) _

/-! ## Registries of sort attributes -/

/-- Put an entry into a registry. -/
def addEntry (r : Registry SortKey) (p : Value × Value) : Except Error (Registry SortKey) :=
  sortKind.add () r p.1 p.2 (.ok [])

theorem addEntries_eq (r : Registry SortKey) (es : Entries) :
    sortKind.addEntries () r es = es.foldlM addEntry r := by
  induction es generalizing r with
  | nil => rfl
  | cons e es ih =>
    obtain ⟨key, v⟩ := e
    rw [DeclarationKind.addEntries, List.foldlM_cons]
    exact bind_congr fun r => ih r

theorem addItems_eq (r : Registry SortKey) (i : Nat) (vs : List Value) :
    sortKind.addItems () r i vs = (Value.positioned i vs).foldlM addEntry r := by
  induction vs generalizing r i with
  | nil => rfl
  | cons v vs ih =>
    cases v with
    | map es =>
      rw [DeclarationKind.addItems, Value.positioned, List.foldlM_append, addEntries_eq]
      exact bind_congr fun r => ih r i
    | _ => exact bind_congr fun r => ih r (i + 1)

/-- Sort attributes are declared entry by entry. -/
theorem sortKeys_eq (v : Value) : sortKeys v = pairs v >>= fun ps => ps.foldlM addEntry [] := by
  cases v with
  | map es => exact addEntries_eq [] es
  | list vs | tuple vs | set vs => exact addItems_eq [] 0 vs
  | _ => rfl

/-- **A registry of sort attributes** holds what its entries declare. -/
theorem declares_of_sortKeys {v : Value} {r : Registry SortKey} (h : sortKeys v = .ok r) :
    ∃ ps ks, pairs v = .ok ps ∧
      List.Forall₂ (fun p k => Declares p.1 p.2 k.1 k.2) ps ks ∧ r = Registry.insertAll [] ks := by
  rw [sortKeys_eq] at h
  obtain ⟨ps, hps, h⟩ := bind_eq_ok_iff.1 h
  have hfrom : ∀ r₀ : Registry SortKey, ps.foldlM addEntry r₀ = .ok r →
      ∃ ks, List.Forall₂ (fun p k => Declares p.1 p.2 k.1 k.2) ps ks ∧
        r = Registry.insertAll r₀ ks := by
    clear h hps
    induction ps with
    | nil =>
      intro r₀ h
      exact ⟨[], .nil, (Except.ok.inj h).symm⟩
    | cons p ps ih =>
      intro r₀ h
      rw [List.foldlM_cons] at h
      obtain ⟨r₁, h₁, h⟩ := bind_eq_ok_iff.1 h
      obtain ⟨name, k, hk, rfl⟩ := declares_of_add h₁
      obtain ⟨ks, hks, hr⟩ := ih _ h
      exact ⟨(name, k) :: ks, .cons hk hks, hr⟩
  obtain ⟨ks, hks, hr⟩ := hfrom [] h
  exact ⟨ps, ks, hps, hks, hr⟩

/-- **Every declared attribute lists columns with directions**, if those that are declared as finished
ones do. -/
theorem sortKeys_readable {v : Value} {ps : List (Value × Value)} (hps : pairs v = .ok ps)
    (hkeys : ∀ p ∈ ps, KeysHashable p.2)
    (hfinished : ∀ p ∈ ps, ∀ k, SortKey.ofValue? p.2 = some k → k.Readable) {r : Registry SortKey}
    (h : sortKeys v = .ok r) : r.All SortKey.Readable := by
  obtain ⟨ps', ks, hps', hks, rfl⟩ := declares_of_sortKeys h
  obtain rfl := Except.ok.inj (hps.symm.trans hps')
  refine Registry.All.foldl_insert .nil (fun e he => ?_) id
  obtain ⟨p, hp, hdeclares⟩ := exists_left_of_mem hks he
  exact hdeclares.readable (hkeys p hp) (hfinished p hp)

/-- The name of the attribute that an entry declares. -/
def publicName (p : Value × Value) : Option String := p.1.text?.or p.2.text?

theorem Declares.publicName_eq {key entry : Value} {name : String} {k : SortKey}
    (h : Declares key entry name k) : publicName (key, entry) = some name := by
  cases h with
  | position _ hposition =>
    cases key <;> first | rfl | cases hposition
  | _ => rfl

/-- **The columns of an attribute that is declared for one direction**: for the other direction they are
the same, in opposite directions. The last entry with a name counts. -/
theorem sortKeys_turns {v : Value} {before after : List (Value × Value)} {p : Value × Value}
    (hps : pairs v = .ok (before ++ p :: after)) {name : String} (hname : publicName p = some name)
    (hlast : ∀ q ∈ after, publicName q ≠ some name) (hentry : OneSided p.2) {r : Registry SortKey}
    (h : sortKeys v = .ok r) : ∃ k ds, r.get? name = some k ∧ k.Turns ds := by
  obtain ⟨ps, ks, hps', hks, rfl⟩ := declares_of_sortKeys h
  obtain rfl := Except.ok.inj (hps.symm.trans hps')
  have hfrom := List.forall₂_drop before.length hks
  rw [List.drop_left] at hfrom
  obtain ⟨e, ks₂, hp, hafter, hks₂⟩ := List.forall₂_cons_left_iff.1 hfrom
  obtain ⟨n, k⟩ := e
  obtain rfl : n = name := Option.some.inj (hp.publicName_eq.symm.trans hname)
  have hothers : ∀ e ∈ ks₂, e.1 ≠ n := by
    intro e he hen
    obtain ⟨q, hq, hdeclares⟩ := exists_left_of_mem hafter he
    exact hlast q hq (hdeclares.publicName_eq.trans (congrArg some hen))
  obtain ⟨ds, -, hk⟩ := hp.turns hentry
  refine ⟨k, ds, ?_, hk⟩
  rw [← List.take_append_drop before.length ks, hks₂]
  exact Registry.get?_insertAll hothers []

end Declaration

end Listing
