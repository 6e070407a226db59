import Listing.Proofs.Source.Script
import Listing.Proofs.Value.Entries
import Listing.Relational.Fetch

/-!
# Queries sort as their orders say

Calls that compare attributes add criteria and nothing else (`Query.Adds`). A call in general either
leaves the order of a query alone, or adds one order and the column that it sorts by
(`Query.ask_cases`). So a query that calls have made of one without an order sorts by the columns of
its orders, in their directions: `Query.IsMade.ordered`. The same holds of the query that cursors are
made of (`Query.Ordered.ranked`).
-/

namespace Listing

/-! ## Directions -/

/-- Small letters are in lower case. -/
theorem Text.lowerChar_eq {c : Char} (hlow : 97 ≤ c.toNat) (hhigh : c.toNat ≤ 122) :
    lowerChar c = c := by
  have hruns : ∀ r ∈ lowerRuns, r.last < 97 ∨ 122 < r.first := by decide +kernel
  unfold lowerChar
  rw [List.find?_eq_none.2]
  intro r hr
  rcases hruns r hr with hr | hr <;> simp <;> omega

theorem Direction.strip_text (direction : Direction) : Text.strip direction.text = direction.text := by
  cases direction <;> decide +kernel

theorem Direction.lower_text (direction : Direction) : Text.lower direction.text = direction.text := by
  cases direction <;> simp [Direction.text, Text.lower, Text.lowerFrom, Text.lowerChar_eq]

/-- A text is no member of an enumeration. -/
theorem Value.text_attribute?_value (s : String) : (Value.text s).attribute? "value" = none := by
  have hnot : (Text.splitOn " " (Value.text s).operationNames).contains "value" = false := by
    unfold Text.splitOn
    dsimp only [Value.operationNames]
    simp only [String.toList_append]
    -- the characters of a literal are those it is written with; taking it apart would take long
    rw [String.toList_ofList, String.toList_ofList, String.toList_ofList, String.toList_ofList,
      String.toList_ofList, String.toList_ofList]
    decide +kernel
  rw [Value.attribute?, hnot]
  rfl

/-- A direction is read from a value that names its text. -/
theorem Direction.ofValue_of_names {v : Value} {direction : Direction} (hv : v ≠ .null)
    (h : (v.attribute? "value").getD v = .text direction.text) : ofValue v = .ok direction := by
  unfold ofValue
  split
  · exact absurd rfl hv
  · rw [h]
    dsimp only
    rw [show (Value.text direction.text).hasText = true from rfl, Bool.not_true, if_neg Bool.false_ne_true,
      show (Value.text direction.text).toText = direction.text from rfl, strip_text, lower_text]
    cases direction with
    | ascending => exact if_neg (by decide)
    | descending => exact if_pos rfl

/-- A direction is read from its text. -/
theorem Direction.ofValue_text (direction : Direction) :
    ofValue (.text direction.text) = .ok direction :=
  ofValue_of_names nofun (by rw [Value.text_attribute?_value]; rfl)

/-- A direction is read from the member of an enumeration that stands for it. -/
theorem Direction.ofValue_choice (direction : Direction) :
    ofValue (.choice (.text direction.text)) = .ok direction :=
  ofValue_of_names nofun rfl

namespace Query

variable {q q' : Query}

/-- Does a query sort by a column as an order says? -/
def Sorts (q : Query) (o : Value × Direction) (s : Column × Bool) : Prop :=
  q.columnOf o.1 = .ok s.1 ∧ s.2 = (o.2 == .descending)

/-- Does a query sort as its orders say? -/
def Ordered (q : Query) : Prop := List.Forall₂ q.Sorts q.orders q.sorting

/-- Is a query on the same entity in the same order? -/
structure Keeps (q q' : Query) : Prop where
  db : q'.db = q.db
  entity : q'.entity = q.entity
  projection : q'.projection = q.projection
  connected : q'.connected = q.connected
  sorting : q'.sorting = q.sorting
  orders : q'.orders = q.orders

theorem Keeps.refl (q : Query) : q.Keeps q := ⟨rfl, rfl, rfl, rfl, rfl, rfl⟩

theorem columnOf_congr (h : q'.entity = q.entity) : q'.columnOf = q.columnOf := by
  funext name
  unfold columnOf
  rw [h]

theorem sorts_congr (h : q'.entity = q.entity) : q'.Sorts = q.Sorts := by
  funext o s
  unfold Sorts
  rw [columnOf_congr h]

theorem Keeps.ordered (h : q.Keeps q') (hq : q.Ordered) : q'.Ordered := by
  unfold Ordered
  rw [sorts_congr h.entity, h.orders, h.sorting]
  exact hq

/-! ## Calls that add criteria -/

/-- Is a query the same but for further criteria? -/
def Adds (q q' : Query) : Prop := ∃ cs, q' = { q with criteria := q.criteria ++ cs }

theorem Adds.keeps (h : q.Adds q') : q.Keeps q' := by
  obtain ⟨cs, rfl⟩ := h
  exact ⟨rfl, rfl, rfl, rfl, rfl, rfl⟩

theorem Adds.refl (q : Query) : q.Adds q := ⟨[], by rw [List.append_nil]⟩

theorem adds_filtered (q : Query) (c : Criterion) : q.Adds (q.filtered c) := ⟨[c], rfl⟩

theorem adds_compare {name operator value : Value} (h : q.compare name operator value = .ok q') :
    q.Adds q' := by
  obtain ⟨c, -, h⟩ := bind_eq_ok_iff.1 h
  cases c with
  | none => cases h
  | some c =>
    obtain ⟨property, -, h⟩ := bind_eq_ok_iff.1 h
    cases property <;>
      (obtain ⟨criterion, -, h⟩ := bind_eq_ok_iff.1 h
       obtain rfl := Except.ok.inj h
       exact adds_filtered ..)

theorem adds_member {name values : Value} (h : q.member name values = .ok q') : q.Adds q' := by
  obtain ⟨property, -, h⟩ := bind_eq_ok_iff.1 h
  obtain ⟨vs, -, h⟩ := bind_eq_ok_iff.1 h
  cases property with
  | relation r => cases h
  | column column =>
    obtain ⟨criterion, -, h⟩ := bind_eq_ok_iff.1 h
    obtain rfl := Except.ok.inj h
    exact adds_filtered ..

theorem adds_like {name pattern operator : Value} (h : q.like name pattern operator = .ok q') :
    q.Adds q' := by
  obtain ⟨property, -, h⟩ := bind_eq_ok_iff.1 h
  obtain ⟨op, -, h⟩ := bind_eq_ok_iff.1 h
  split at h
  · cases h
  · cases h
  · cases h
  · obtain rfl := Except.ok.inj h
    exact adds_filtered ..

theorem adds_scope {name : Value} {arguments : List Value} (h : q.scope name arguments = .ok q') :
    q.Adds q' := by
  unfold scope at h
  split at h
  · split at h
    · obtain ⟨criteria, -, h⟩ := bind_eq_ok_iff.1 h
      obtain rfl := Except.ok.inj h
      exact ⟨criteria, rfl⟩
    · cases h
    · cases h
  · cases h

theorem adds_whereAny {branches : List (Given Query)} (h : q.whereAny branches = .ok q') :
    q.Adds q' := by
  obtain ⟨criteria, -, h⟩ := bind_eq_ok_iff.1 h
  obtain rfl := Except.ok.inj h
  split
  · exact .refl q
  · exact adds_filtered ..

theorem adds_whereHas {relation : Value} {refinement : Given Query}
    (h : q.whereHas relation refinement = .ok q') : q.Adds q' := by
  unfold whereHas at h
  split at h
  · obtain ⟨criterion, -, h⟩ := bind_eq_ok_iff.1 h
    obtain rfl := Except.ok.inj h
    exact adds_filtered ..
  · cases h

/-! ## Calls that leave the order alone -/

theorem keeps_select {name : Value} (h : q.select name = .ok q') : q.Keeps q' := by
  obtain ⟨property, -, h⟩ := bind_eq_ok_iff.1 h
  obtain ⟨known, -, h⟩ := bind_eq_ok_iff.1 h
  obtain rfl := Except.ok.inj h
  cases known <;> exact ⟨rfl, rfl, rfl, rfl, rfl, rfl⟩

theorem keeps_mark {mode : Trashed} (h : q.mark mode = .ok q') : q.Keeps q' := by
  unfold mark at h
  split at h
  · obtain rfl := Except.ok.inj h
    exact ⟨rfl, rfl, rfl, rfl, rfl, rfl⟩
  · cases h

theorem keeps_aggregate {relation column function : Value}
    (h : q.aggregate relation column function = .ok q') : q.Keeps q' := by
  unfold aggregate at h
  simp only [pure_eq_ok, throw_eq_error, ok_bind, error_bind] at h
  split at h
  · split at h
    · cases h
    · split at h
      · cases h
      · obtain ⟨text, -, h⟩ := bind_eq_ok_iff.1 h
        obtain ⟨r, -, h⟩ := bind_eq_ok_iff.1 h
        obtain ⟨inner, -, h⟩ := bind_eq_ok_iff.1 h
        split at h
        · obtain rfl := Except.ok.inj h
          exact ⟨rfl, rfl, rfl, rfl, rfl, rfl⟩
        · obtain ⟨c, -, h⟩ := bind_eq_ok_iff.1 h
          obtain rfl := Except.ok.inj h
          exact ⟨rfl, rfl, rfl, rfl, rfl, rfl⟩
  · cases h
  · cases h

theorem keeps_load {relation : Value} {refinement : Given Query}
    (h : q.load relation refinement = .ok q') : q.Keeps q' := by
  unfold load at h
  split at h
  · obtain ⟨loadings, -, h⟩ := bind_eq_ok_iff.1 h
    obtain rfl := Except.ok.inj h
    exact ⟨rfl, rfl, rfl, rfl, rfl, rfl⟩
  · cases h

/-! ## Calls in general -/

/-- **A call leaves the order alone, or adds an order.** -/
theorem ask_cases {c : Capability} {given : List (Given Query)} (h : q.ask c given = .ok q') :
    q.Keeps q' ∨ ∃ name direction, q.order name direction = .ok q' := by
  unfold ask at h
  split at h
  · exact .inl (keeps_select h)
  · exact .inl (adds_compare h).keeps
  · exact .inl (adds_member h).keeps
  · exact .inl (adds_like h).keeps
  · exact .inl (adds_like h).keeps
  · obtain ⟨branches, -, h⟩ := bind_eq_ok_iff.1 h
    exact .inl (adds_whereAny h).keeps
  · exact .inl (adds_whereHas h).keeps
  · exact .inl (adds_whereHas h).keeps
  · obtain ⟨arguments, -, h⟩ := bind_eq_ok_iff.1 h
    exact .inl (adds_scope h).keeps
  · exact .inl (keeps_mark h)
  · exact .inl (keeps_load h)
  · exact .inl (keeps_load h)
  · exact .inl (keeps_aggregate h)
  · exact .inr ⟨_, _, h⟩
  · obtain ⟨direction, -, h⟩ := bind_eq_ok_iff.1 h
    exact .inr ⟨_, _, h⟩
  · cases h

/-- What an order adds to a query. -/
theorem order_eq_ok {name : Value} {direction : Direction} (h : q.order name direction = .ok q') :
    ∃ column, q.columnOf name = .ok column ∧
      q' = { q with sorting := q.sorting ++ [(column, direction == .descending)]
                    orders := q.orders ++ [(name, direction)] } := by
  obtain ⟨property, hproperty, h⟩ := bind_eq_ok_iff.1 h
  cases property with
  | relation r => cases h
  | column column =>
    refine ⟨column, ?_, (Except.ok.inj h).symm⟩
    unfold propertyOf at hproperty
    split at hproperty
    · cases hproperty
    · obtain ⟨c, hc, heq⟩ := map_eq_ok_iff.1 hproperty
      rwa [Property.column.inj heq] at hc

theorem Ordered.order {name : Value} {direction : Direction} (hq : q.Ordered)
    (h : q.order name direction = .ok q') : q'.Ordered := by
  obtain ⟨column, hcolumn, rfl⟩ := order_eq_ok h
  exact List.rel_append hq (.cons ⟨hcolumn, rfl⟩ .nil)

/-- Is it a query in a session that nothing orders, of an entity or of some of its rows? -/
structure IsBase (q : Query) : Prop where
  connected : q.connected = true
  sorting : q.sorting = []
  orders : q.orders = []

/-- Have calls made the query? -/
def IsMade (q : Query) : Prop :=
  ∃ base script, IsBase base ∧ Script.run capabilities base script = .ok q

/-- **A query sorts as its orders say.** -/
theorem IsMade.ordered (h : q.IsMade) : q.Ordered ∧ q.connected = true := by
  obtain ⟨base, script, hbase, h⟩ := h
  have hordered : base.Ordered := by
    rw [Ordered, hbase.orders, hbase.sorting]
    exact .nil
  refine Script.run_preserves (P := fun q => q.Ordered ∧ q.connected = true) ?_ h
    ⟨hordered, hbase.connected⟩
  rintro s c given s' hask ⟨hs, hconnected⟩
  rcases ask_cases hask with hkeeps | ⟨name, direction, horder⟩
  · exact ⟨hkeeps.ordered hs, hkeeps.connected.trans hconnected⟩
  · refine ⟨hs.order horder, ?_⟩
    obtain ⟨column, -, rfl⟩ := order_eq_ok horder
    exact hconnected

theorem IsBase.isMade (h : q.IsBase) : q.IsMade :=
  ⟨q, .done, h, by rw [Script.done, Script.run, callsRun]; rfl⟩

theorem ask_order (name : Value) (direction : Direction) :
    q.ask .order [.value name, .value (.choice (.text direction.text))] = q.order name direction := by
  show (Direction.ofValue (.choice (.text direction.text)) >>= fun d => q.order name d) = _
  rw [direction.ofValue_choice, ok_bind]

/-- **Calls can order** a query by what it can be ordered by. -/
theorem IsMade.order {name : Value} {direction : Direction} (h : q.IsMade)
    (horder : q.order name direction = .ok q') : q'.IsMade := by
  obtain ⟨base, ⟨calls, failure⟩, hbase, h⟩ := h
  rw [Script.run] at h
  obtain ⟨q₁, hcalls, h⟩ := bind_eq_ok_iff.1 h
  cases failure with
  | some e => cases h
  | none =>
    obtain rfl := Except.ok.inj h
    have hcall : (Call.order name (.choice (.text direction.text))).run capabilities q₁ = .ok q' := by
      rw [Call.order, Call.run]
      refine (if_pos rfl).trans ?_
      simp only [argumentsGiven, Argument.given, capabilities, ask_order, horder]
    refine ⟨base, .mk (calls ++ [.order name (.choice (.text direction.text))]) none, hbase, ?_⟩
    rw [Script.run, callsRun_append, hcalls, ok_bind, callsRun, hcall, ok_bind, callsRun]
    rfl

end Query

/-! ## The primary key -/

namespace Entity

/-- Is the primary key made of columns, which are not also relations? -/
structure HasKey (e : Entity) : Prop where
  known : ∀ name ∈ e.key, ∃ column, e.column? name = some column
  apart : ∀ name ∈ e.key, e.relation? name = none

/-- The order of the primary key. -/
def keySorting (e : Entity) : List (Column × Bool) :=
  (e.key.filterMap e.column?).map fun column => (column, false)

/-- The orders by the primary key. -/
def keyOrders (e : Entity) : List (Value × Direction) :=
  e.key.map fun name => (.text name, .ascending)

end Entity

namespace Query

variable {q k : Query}

/-- The query with further orders. -/
def orderedBy (q : Query) (sorting : List (Column × Bool)) (orders : List (Value × Direction)) :
    Query := { q with sorting := q.sorting ++ sorting, orders := q.orders ++ orders }

/-- The query that cursors are made of, which is in the order of the primary key if there is no
other. -/
def ranked (q : Query) : Query :=
  if q.orders.isEmpty then q.orderedBy q.entity.keySorting q.entity.keyOrders else q

theorem columnOf_text {name : String} {column : Column} (h : q.entity.column? name = some column) :
    q.columnOf (.text name) = .ok column := by
  have hnames : names q.entity (.text name) = fun c : Column × Nat => c.1.name == name := by
    funext c
    have hint : (Value.text name).equal (.int c.2) = false :=
      Value.IsName.equal_eq_false (Value.isName_text _) (Value.isName_int _) (by simp)
    rw [names, hint, Bool.and_false, Bool.or_false, Bool.eq_iff_iff, Value.equal_text,
      Value.text.injEq, beq_iff_eq, eq_comm]
  obtain ⟨c, hc, rfl⟩ : ∃ c, q.entity.columns.zipIdx.find? (names q.entity (.text name)) = some c ∧
      c.1 = column := by
    have hmap : (q.entity.columns.zipIdx.map Prod.fst).find? (fun c => c.name == name) =
        some column := by
      rw [List.zipIdx_map_fst]
      exact h
    rw [List.find?_map] at hmap
    rw [hnames]
    exact Option.map_eq_some_iff.1 hmap
  unfold columnOf
  rw [show (Value.text name).hashable = true from rfl]
  simp only [Bool.not_true, Bool.and_false, Bool.false_eq_true, if_false, hc]

theorem propertyOf_text {name : String} {column : Column} (h : q.entity.column? name = some column)
    (hapart : q.entity.mapped = true → q.entity.relation? name = none) :
    q.propertyOf (.text name) = .ok (.column column) := by
  have hnone : (if q.entity.mapped then (Value.text name).text?.bind q.entity.relation? else none) =
      none := by
    split
    · next hmapped => exact hapart hmapped
    · rfl
  unfold propertyOf
  rw [hnone, columnOf_text h]
  rfl

theorem order_text {name : String} {column : Column} (h : q.entity.column? name = some column)
    (hapart : q.entity.relation? name = none) (direction : Direction) :
    q.order (.text name) direction =
      .ok (q.orderedBy [(column, direction == .descending)] [(.text name, direction)]) := by
  unfold order
  rw [propertyOf_text h fun _ => hapart]
  rfl

/-- Calls order a query by columns of its entity. -/
theorem IsMade.orderedBy (h : q.IsMade) {orders : List (Column × Direction)}
    (hknown : ∀ o ∈ orders, q.entity.column? o.1.name = some o.1)
    (hapart : ∀ o ∈ orders, q.entity.relation? o.1.name = none) :
    (q.orderedBy (orders.map fun o => (o.1, o.2 == .descending))
      (orders.map fun o => (.text o.1.name, o.2))).IsMade := by
  induction orders generalizing q with
  | nil =>
    have hnil : q.orderedBy [] [] = q := by simp [Query.orderedBy]
    exact hnil.symm ▸ h
  | cons o orders ih =>
    have horder := h.order (order_text (hknown o (List.mem_cons_self ..))
      (hapart o (List.mem_cons_self ..)) o.2)
    have ih := ih horder (fun o ho => hknown o (List.mem_cons_of_mem _ ho))
      (fun o ho => hapart o (List.mem_cons_of_mem _ ho))
    simpa [Query.orderedBy] using ih

theorem foldlM_order {names : List String} (q : Query)
    (hknown : ∀ name ∈ names, ∃ column, q.entity.column? name = some column)
    (hapart : ∀ name ∈ names, q.entity.relation? name = none) :
    names.foldlM (fun q name => q.order (.text name) .ascending) q = .ok (q.orderedBy
      ((names.filterMap q.entity.column?).map fun column => (column, false))
      (names.map fun name => (.text name, .ascending))) := by
  induction names generalizing q with
  | nil => simp [orderedBy]
  | cons name names ih =>
    obtain ⟨column, hcolumn⟩ := hknown name (List.mem_cons_self ..)
    have ih := ih (q.orderedBy [(column, false)] [(.text name, .ascending)])
      (fun name hname => hknown name (List.mem_cons_of_mem _ hname))
      (fun name hname => hapart name (List.mem_cons_of_mem _ hname))
    rw [List.foldlM_cons, order_text hcolumn (hapart name (List.mem_cons_self ..)), ok_bind]
    refine Eq.trans ih ?_
    simp [orderedBy, hcolumn]

/-- **A query is ordered by the primary key if by nothing else.** -/
theorem keyed_eq (h : q.entity.HasKey) : q.keyed = .ok q.ranked := by
  unfold keyed ranked
  split
  · exact foldlM_order q h.known h.apart
  · rfl

theorem Ordered.ranked (hq : q.Ordered) (h : q.entity.HasKey) : q.ranked.Ordered := by
  have hfold : ∀ (names : List String) {q k : Query}, q.Ordered →
      names.foldlM (fun q name => q.order (.text name) .ascending) q = .ok k → k.Ordered := by
    intro names
    induction names with
    | nil =>
      intro q k hq hk
      obtain rfl := Except.ok.inj hk
      exact hq
    | cons name names ih =>
      intro q k hq hk
      rw [List.foldlM_cons] at hk
      obtain ⟨q', hq', hk⟩ := bind_eq_ok_iff.1 hk
      exact ih (hq.order hq') hk
  have hkeyed := keyed_eq h
  unfold keyed at hkeyed
  split at hkeyed
  · exact hfold _ hq hkeyed
  · rwa [← Except.ok.inj hkeyed]

end Query

end Listing
