import Listing.Proofs.Relational.Ordered
import Listing.Proofs.Relational.Sorting
import Listing.Proofs.Source.Script
import Listing.Proofs.Source.Sorting
import Listing.Proofs.Value.Comparable

/-!
# The order of the rows of a collection

A collection sorts its rows once for each of its orders, from the last one to the first one, and turns
the rows around where an order descends. Where the values of the rows under each attribute are
comparable, null aside, this is one stable sort: the rows are in lexicographic order, the first order
being the most significant, and rows that are level stay as they are (`Collection.stablySorted_ordered`).
Null is the lowest value. The statement for the rows that a collection lists after some calls to order
it is `Collection.get_of_order_calls`.

So two rows that the orders tell apart are listed as these say (`StablySorted.sublist_iff`).
-/

namespace Listing

open Std

/-- An order in a direction. -/
def Direction.turn : Direction → Ordering → Ordering
  | .ascending, o => o
  | .descending, o => o.swap

/-- The other direction. -/
def Direction.flip : Direction → Direction
  | .ascending => .descending
  | .descending => .ascending

theorem Direction.turn_flip (d : Direction) (o : Ordering) : d.flip.turn o = (d.turn o).swap := by
  cases d
  · rfl
  · exact (Ordering.swap_swap).symm

theorem Direction.turn_eq_eq {d : Direction} {o : Ordering} : d.turn o = .eq ↔ o = .eq := by
  cases d <;> cases o <;> decide

theorem Direction.turn_descending {α : Type} (cmp : α → α → Ordering) [OrientedCmp cmp] :
    (fun a b => Direction.descending.turn (cmp a b)) = fun a b => cmp b a := by
  funext a b
  exact (OrientedCmp.eq_swap : cmp b a = (cmp a b).swap).symm

theorem Direction.transCmp_turn {α : Type} {cmp : α → α → Ordering} [TransCmp cmp] (d : Direction) :
    TransCmp fun a b => d.turn (cmp a b) := by
  cases d with
  | ascending => exact ‹TransCmp cmp›
  | descending =>
    rw [turn_descending cmp]
    exact TransCmp.opposite

theorem Ordering.then_eq_left {o o' : Ordering} (h : o ≠ .eq) : o.then o' = o := by
  cases o
  case eq => exact absurd rfl h
  all_goals rfl

theorem Direction.eq_or_eq_flip (d e : Direction) : e = d ∨ e = d.flip := by
  cases d <;> cases e <;> decide

/-! ## Stable sorts -/

section

variable {α : Type} {cmp cmp' : α → α → Ordering} {xs sorted : List α}

/-- Is it the list of the items in order, in which items that are level with each other stand as they
do in the list of items? -/
structure StablySorted (cmp : α → α → Ordering) (xs sorted : List α) : Prop where
  perm : sorted.Perm xs
  pairwise : sorted.Pairwise fun a b => cmp a b ≠ .gt
  level : ∀ a ∈ xs, sorted.filter (ties cmp a) = xs.filter (ties cmp a)

theorem stablySorted_mergeSort [TransCmp cmp] (xs : List α) :
    StablySorted cmp xs (xs.mergeSort (atMost cmp)) where
  perm := List.mergeSort_perm ..
  pairwise := (List.pairwise_mergeSort atMost_trans atMost_total xs).imp bne_iff_ne.1
  level := fun a _ => filter_ties_mergeSort a xs

/-- Only the order of the items themselves matters. -/
theorem StablySorted.congr (h : StablySorted cmp xs sorted)
    (hcmp : ∀ a ∈ xs, ∀ b ∈ xs, cmp' a b = cmp a b) : StablySorted cmp' xs sorted where
  perm := h.perm
  pairwise := h.pairwise.imp_of_mem fun ha hb hab => by
    rwa [hcmp _ (h.perm.mem_iff.1 ha) _ (h.perm.mem_iff.1 hb)]
  level := fun a ha => by
    have hties : ∀ b ∈ xs, ties cmp' a b = ties cmp a b := fun b hb => by
      rw [ties, ties, hcmp a ha b hb]
    rw [List.filter_congr fun b hb => hties b (h.perm.mem_iff.1 hb), h.level a ha]
    exact (List.filter_congr hties).symm

/-- Of two different items of a list one comes before the other. -/
theorem sublist_or_sublist {a b : α} (ha : a ∈ xs) (hb : b ∈ xs) (hne : a ≠ b) :
    [a, b].Sublist xs ∨ [b, a].Sublist xs := by
  obtain ⟨before, after, rfl⟩ := List.append_of_mem ha
  rcases List.mem_append.1 hb with hb | hb
  · refine .inr ?_
    exact (List.singleton_sublist.2 hb).append (List.singleton_sublist.2 (List.mem_cons_self ..))
  · have hb : b ∈ after := (List.mem_cons.1 hb).resolve_left hne.symm
    exact .inl ((List.cons_sublist_cons.2 (List.singleton_sublist.2 hb)).trans
      (List.sublist_append_right ..))

/-- **Items that are not level are listed in order.** -/
theorem StablySorted.sublist_iff (h : StablySorted cmp xs sorted) {a b : α} (ha : a ∈ xs) (hb : b ∈ xs)
    (hswap : cmp b a = (cmp a b).swap) (hne : cmp a b ≠ .eq) : [a, b].Sublist sorted ↔ cmp a b = .lt := by
  have hsorted : ∀ {c d : α}, [c, d].Sublist sorted → cmp c d ≠ .gt :=
    List.pairwise_iff_forall_sublist.1 h.pairwise
  constructor
  · intro hab
    have hle := hsorted hab
    cases hcmp : cmp a b with
    | lt => rfl
    | eq => exact absurd hcmp hne
    | gt => exact absurd hcmp hle
  · intro hlt
    have hab : a ≠ b := by
      rintro rfl
      rw [hlt] at hswap
      cases hswap
    refine (sublist_or_sublist (h.perm.mem_iff.2 ha) (h.perm.mem_iff.2 hb) hab).resolve_right ?_
    intro hba
    refine hsorted hba ?_
    rw [hswap, hlt]
    rfl

end

/-! ## One key -/

section

variable {α : Type} {key : α → Value} {cmp : Value → Value → Ordering} {xs : List α}

theorem transCmp_onKey [TransCmp cmp] : TransCmp fun a b => cmp (key a) (key b) where
  eq_swap := fun {a b} => @OrientedCmp.eq_swap _ cmp _ (key a) (key b)
  isLE_trans := fun {a b c} => @TransCmp.isLE_trans _ cmp _ (key a) (key b) (key c)

/-- Items with keys in one order are sorted by that order. -/
theorem sortKeyed?_eq
    (h : ∀ a ∈ xs, ∀ b ∈ xs, keyOrder? (key a) (key b) = .ok (some (cmp (key a) (key b)))) :
    sortKeyed? (xs.map fun a => (key a, a)) =
      .ok ((xs.mergeSort (atMost fun a b => cmp (key a) (key b))).map fun a => (key a, a)) := by
  have horder : haveOrder ((xs.map fun a => (key a, a)).map Prod.fst) = true := by
    rw [List.map_map]
    refine @Value.haveOrder_of_keyOrder? _ cmp fun v hv w hw => ?_
    obtain ⟨a, ha, rfl⟩ := List.mem_map.1 hv
    obtain ⟨b, hb, rfl⟩ := List.mem_map.1 hw
    exact h a ha b hb
  unfold sortKeyed?
  rw [if_pos horder]
  refine congrArg Except.ok (List.map_mergeSort fun a ha b hb => ?_).symm
  rw [atMost, keyAtMost, h a ha b hb]
  cases cmp (key a) (key b) <;> rfl

/-- **Items with keys in one order** are sorted by that order in either direction. -/
theorem sortByKey?_eq [TransCmp cmp] {readKey : α → Except Error Value}
    (hkey : ∀ a ∈ xs, readKey a = .ok (key a))
    (h : ∀ a ∈ xs, ∀ b ∈ xs, keyOrder? (key a) (key b) = .ok (some (cmp (key a) (key b))))
    (direction : Direction) : sortByKey? readKey (direction = .descending) xs =
      .ok (xs.mergeSort (atMost fun a b => direction.turn (cmp (key a) (key b)))) := by
  have hkeyed : (xs.mapM fun a => do return (← readKey a, a)) =
      Except.ok (ε := Error) (xs.map fun a => (key a, a)) := by
    rw [mapM_eq_ok_iff, List.forall₂_map_right_iff, List.forall₂_same]
    intro a ha
    rw [hkey a ha]
    rfl
  have hfst : ∀ ys : List α, (ys.map fun a => (key a, a)).map Prod.snd = ys := fun ys => by
    rw [List.map_map]
    exact List.map_id _
  unfold sortByKey?
  rw [hkeyed, ok_bind]
  cases direction with
  | ascending =>
    rw [if_neg (by decide), sortKeyed?_eq h, ok_bind, hfst]
    rfl
  | descending =>
    have hreversed : ∀ a ∈ xs.reverse, ∀ b ∈ xs.reverse,
        keyOrder? (key a) (key b) = .ok (some (cmp (key a) (key b))) := fun a ha b hb =>
      h a (List.mem_reverse.1 ha) b (List.mem_reverse.1 hb)
    have htrans : TransCmp fun a b => cmp (key a) (key b) := transCmp_onKey
    rw [if_pos (by decide), ← List.map_reverse, sortKeyed?_eq hreversed, ok_bind, hfst,
      Direction.turn_descending fun a b => cmp (key a) (key b)]
    exact congrArg Except.ok (@reverse_mergeSort _ _ htrans xs)

end

/-! ## The orders of a collection -/

namespace Collection

/-- The value of a row that an attribute orders it by. -/
def keyOf (name row : Value) : Value := (readAttribute row name).toOption.getD .null

/-- How two rows compare by some orders, the first one being the most significant. -/
def compareBy : List (Value × Direction) → Value → Value → Ordering
  | [], _, _ => .eq
  | (name, direction) :: orders, a, b =>
    (direction.turn (Value.order (keyOf name a) (keyOf name b))).then (compareBy orders a b)

/-- The first of some orders whose attribute tells two rows apart. -/
def decisive? (orders : List (Value × Direction)) (a b : Value) : Option (Value × Direction) :=
  orders.find? fun o => Value.order (keyOf o.1 a) (keyOf o.1 b) != .eq

/-- **Rows compare as the decisive order says.** -/
theorem compareBy_eq (orders : List (Value × Direction)) (a b : Value) :
    compareBy orders a b = match decisive? orders a b with
      | none => .eq
      | some o => o.2.turn (Value.order (keyOf o.1 a) (keyOf o.1 b)) := by
  induction orders with
  | nil => rfl
  | cons o orders ih =>
    obtain ⟨name, direction⟩ := o
    rw [compareBy, decisive?, List.find?_cons]
    by_cases horder : Value.order (keyOf name a) (keyOf name b) = .eq
    · rw [horder, Direction.turn_eq_eq.2 rfl]
      exact ih
    · rw [bne_iff_ne.2 horder]
      exact Ordering.then_eq_left (mt Direction.turn_eq_eq.1 horder)

theorem compareBy_of_decisive {orders : List (Value × Direction)} {a b : Value} {o : Value × Direction}
    (h : decisive? orders a b = some o) : compareBy orders a b =
      o.2.turn (Value.order (keyOf o.1 a) (keyOf o.1 b)) := by
  rw [compareBy_eq, h]

theorem order_ne_eq_of_decisive {orders : List (Value × Direction)} {a b : Value} {o : Value × Direction}
    (h : decisive? orders a b = some o) : Value.order (keyOf o.1 a) (keyOf o.1 b) ≠ .eq := by
  rw [decisive?] at h
  have hdiffer := List.find?_some h
  exact bne_iff_ne.1 hdiffer

theorem compareBy_append (orders more : List (Value × Direction)) (a b : Value) :
    compareBy (orders ++ more) a b = (compareBy orders a b).then (compareBy more a b) := by
  induction orders with
  | nil => rfl
  | cons o orders ih =>
    obtain ⟨name, direction⟩ := o
    rw [List.cons_append, compareBy, compareBy, ih, Ordering.then_assoc]

theorem compareBy_eq_eq_iff {orders : List (Value × Direction)} {a b : Value} :
    compareBy orders a b = .eq ↔ ∀ o ∈ orders, Value.order (keyOf o.1 a) (keyOf o.1 b) = .eq := by
  induction orders with
  | nil => simp [compareBy]
  | cons o orders ih =>
    obtain ⟨name, direction⟩ := o
    rw [compareBy, Ordering.then_eq_eq, Direction.turn_eq_eq, ih, List.forall_mem_cons]

/-- Orders of the same attributes are decided by the same attribute. -/
theorem decisive?_of_forall₂ {R : Value × Direction → Value × Direction → Prop}
    {orders orders' : List (Value × Direction)}
    (h : List.Forall₂ (fun o o' => o'.1 = o.1 ∧ R o o') orders orders') {a b : Value}
    {o : Value × Direction} (ho : decisive? orders a b = some o) :
    ∃ o', decisive? orders' a b = some o' ∧ o'.1 = o.1 ∧ R o o' := by
  induction h with
  | nil => cases ho
  | @cons o₁ o₁' orders orders' hsame _ ih =>
    rw [decisive?, List.find?_cons] at ho ⊢
    rw [hsame.1]
    cases hdiffer : Value.order (keyOf o₁.1 a) (keyOf o₁.1 b) != .eq with
    | true =>
      rw [hdiffer] at ho
      obtain rfl := Option.some.inj ho
      exact ⟨o₁', rfl, hsame⟩
    | false =>
      rw [hdiffer] at ho
      exact ih ho

/-- **Orders that come in place of others**, of the same attributes and with more behind them, compare two
rows that those tell apart in the same way or in the opposite one: as the decisive attribute is in the
same direction, or in the other one. -/
theorem compareBy_of_forall₂ {R : Value × Direction → Value × Direction → Prop}
    {orders kept : List (Value × Direction)} (more : List (Value × Direction))
    (hkept : List.Forall₂ (fun o o' => o'.1 = o.1 ∧ (o'.2 = o.2 ∨ R o o')) orders kept) {a b name : Value}
    {direction : Direction} (h : decisive? orders a b = some (name, direction)) :
    ∃ direction', decisive? (kept ++ more) a b = some (name, direction') ∧
      (direction' = direction ∧ compareBy (kept ++ more) a b = compareBy orders a b ∨
        direction' = direction.flip ∧ R (name, direction) (name, direction') ∧
          compareBy (kept ++ more) a b = (compareBy orders a b).swap) := by
  obtain ⟨⟨name', direction'⟩, hkeptDecisive, hname, hdirection⟩ := decisive?_of_forall₂ hkept h
  obtain rfl : name' = name := hname
  have hdecisive : decisive? (kept ++ more) a b = some (name', direction') := by
    rw [decisive?, List.find?_append, ← decisive?, hkeptDecisive]
    rfl
  rw [compareBy_of_decisive h, compareBy_of_decisive hdecisive]
  refine ⟨direction', hdecisive, ?_⟩
  by_cases hsame : direction' = direction
  · subst hsame
    exact .inl ⟨rfl, rfl⟩
  · obtain rfl := (Direction.eq_or_eq_flip direction direction').resolve_left hsame
    exact .inr ⟨rfl, hdirection.resolve_left hsame, Direction.turn_flip ..⟩

/-- **Orders in the opposite directions** compare rows the other way round. -/
theorem compareBy_flip (orders : List (Value × Direction)) (a b : Value) :
    compareBy (orders.map fun o => (o.1, o.2.flip)) a b = (compareBy orders a b).swap := by
  induction orders with
  | nil => rfl
  | cons o orders ih =>
    obtain ⟨name, direction⟩ := o
    rw [List.map_cons, compareBy, compareBy, ih, Direction.turn_flip, Ordering.swap_then]

/-- Can rows be put in order by an attribute? All of them can be asked for it, and their values that are
not null are comparable. -/
structure Orderable (rows : List Value) (name : Value) : Prop where
  readable : ∀ row ∈ rows, ∃ v, readAttribute row name = .ok v
  comparable : Value.Comparable ((rows.map (keyOf name)).filter fun v => !v.isNull)

variable {rows listed : List Value} {name : Value}

theorem Orderable.readAttribute_eq (h : Orderable rows name) {row : Value} (hrow : row ∈ rows) :
    readAttribute row name = .ok (keyOf name row) := by
  obtain ⟨v, hv⟩ := h.readable row hrow
  rw [keyOf, hv]
  rfl

/-- Rows are sorted by one attribute as their values are in order. -/
theorem Orderable.exists_sorts (h : Orderable rows name) (direction : Direction) :
    ∃ cmp : Value → Value → Ordering, TransCmp cmp ∧
      (∀ a ∈ rows, ∀ b ∈ rows, direction.turn (Value.order (keyOf name a) (keyOf name b)) = cmp a b) ∧
      ∀ xs, (∀ x ∈ xs, x ∈ rows) →
        sortByKey? (fun row => readAttribute row name) (direction = .descending) xs =
          .ok (xs.mergeSort (atMost cmp)) := by
  obtain ⟨cmp, htrans, hcmp⟩ := h.comparable.exists_order
  have hrows : ∀ a ∈ rows, ∀ b ∈ rows, Value.order (keyOf name a) (keyOf name b) =
      cmp (keyOf name a) (keyOf name b) ∧ keyOrder? (keyOf name a) (keyOf name b) =
        .ok (some (cmp (keyOf name a) (keyOf name b))) := fun a ha b hb =>
    hcmp _ (List.mem_map_of_mem ha) _ (List.mem_map_of_mem hb)
  refine ⟨fun a b => direction.turn (cmp (keyOf name a) (keyOf name b)), ?trans,
    fun a ha b hb => congrArg _ (hrows a ha b hb).1, fun xs hxs => ?sorts⟩
  case trans =>
    have hkeys : TransCmp fun a b => cmp (keyOf name a) (keyOf name b) := transCmp_onKey
    exact direction.transCmp_turn
  case sorts =>
    exact sortByKey?_eq (fun a ha => h.readAttribute_eq (hxs a ha))
      (fun a ha b hb => (hrows a (hxs a ha) b (hxs b hb)).2) direction

/-- Rows are sorted by some orders as one transitive comparison says. The induction is on the orders;
that a sort is stable makes the sort by the first of them, after the others, one by all of them. -/
theorem exists_sorts {orders : List (Value × Direction)} (h : ∀ o ∈ orders, Orderable rows o.1) :
    ∃ cmp : Value → Value → Ordering, TransCmp cmp ∧
      (∀ a ∈ rows, ∀ b ∈ rows, compareBy orders a b = cmp a b) ∧
      ordered orders rows = .ok (rows.mergeSort (atMost cmp)) := by
  induction orders with
  | nil =>
    have hlevel : TransCmp fun _ _ : Value => Ordering.eq :=
      { eq_swap := rfl, isLE_trans := fun _ _ => rfl }
    refine ⟨fun _ _ => .eq, hlevel, fun _ _ _ _ => rfl, ?_⟩
    exact congrArg Except.ok
      (List.mergeSort_of_pairwise (List.pairwise_of_forall fun _ _ => rfl)).symm
  | cons o orders ih =>
    obtain ⟨name, direction⟩ := o
    obtain ⟨last, hlast, hagree, hordered⟩ := ih fun o ho => h o (List.mem_cons_of_mem _ ho)
    obtain ⟨first, hfirst, hkey, hsorts⟩ :=
      (h (name, direction) (List.mem_cons_self ..)).exists_sorts direction
    refine ⟨compareLex first last, inferInstance, fun a ha b hb => ?_, ?_⟩
    · rw [compareBy, hkey a ha b hb, hagree a ha b hb]
      rfl
    · rw [ordered, hordered, ok_bind, hsorts _ fun x hx => List.mem_mergeSort.1 hx,
        mergeSort_compareLex]

theorem compareBy_swap {orders : List (Value × Direction)} (h : ∀ o ∈ orders, Orderable rows o.1)
    {a b : Value} (ha : a ∈ rows) (hb : b ∈ rows) :
    compareBy orders b a = (compareBy orders a b).swap := by
  obtain ⟨cmp, htrans, hagree, -⟩ := exists_sorts h
  rw [hagree a ha b hb, hagree b hb a ha]
  exact OrientedCmp.eq_swap

theorem compareBy_level_symm {orders : List (Value × Direction)}
    (h : ∀ o ∈ orders, Orderable rows o.1) {a b : Value} (ha : a ∈ rows) (hb : b ∈ rows)
    (hlevel : compareBy orders a b = .eq) : compareBy orders b a = .eq := by
  rw [compareBy_swap h ha hb, hlevel]
  rfl

/-- **Rows are sorted lexicographically**, and rows that are level stay as they are. -/
theorem stablySorted_ordered {orders : List (Value × Direction)} (h : ∀ o ∈ orders, Orderable rows o.1) :
    ∃ listed, ordered orders rows = .ok listed ∧ StablySorted (compareBy orders) rows listed := by
  obtain ⟨cmp, htrans, hagree, hordered⟩ := exists_sorts h
  exact ⟨_, hordered, (stablySorted_mergeSort rows).congr hagree⟩

/-! ## Calls to order -/

/-- The order that a call asks for. -/
def readOrder (call : Value × Value) : Except Error (Value × Direction) := do
  return (call.1, ← Direction.ofValue call.2)

theorem readOrder_eq_ok_iff {call : Value × Value} {o : Value × Direction} :
    readOrder call = .ok o ↔ o.1 = call.1 ∧ Direction.ofValue call.2 = .ok o.2 := by
  obtain ⟨column, direction⟩ := o
  rw [readOrder, bind_eq_ok_iff]
  constructor
  · rintro ⟨d, hd, h⟩
    obtain ⟨rfl, rfl⟩ := Prod.mk.inj (Except.ok.inj h)
    exact ⟨rfl, hd⟩
  · rintro ⟨rfl, hd⟩
    exact ⟨direction, hd, rfl⟩

/-- Directions that can be read are read. -/
theorem exists_readOrders {calls : List (Value × Value)}
    (h : ∀ call ∈ calls, ∃ direction, Direction.ofValue call.2 = .ok direction) :
    ∃ orders, calls.mapM readOrder = .ok orders := by
  induction calls with
  | nil => exact ⟨[], rfl⟩
  | cons call calls ih =>
    obtain ⟨direction, hdirection⟩ := h call (List.mem_cons_self ..)
    obtain ⟨orders, horders⟩ := ih fun call hcall => h call (List.mem_cons_of_mem _ hcall)
    refine ⟨(call.1, direction) :: orders, ?_⟩
    have hcall : readOrder call = .ok (call.1, direction) :=
      readOrder_eq_ok_iff.2 ⟨rfl, hdirection⟩
    rw [List.mapM_cons, hcall, ok_bind, horders]
    rfl

/-- **Calls to order add their orders**, after those that are there, and change nothing else. -/
theorem run_order_calls (c : Collection) (calls : List (Value × Value)) :
    callsRun capabilities c (calls.map fun call => .order call.1 call.2) =
      (calls.mapM readOrder).map fun orders => { c with orders := c.orders ++ orders } := by
  induction calls generalizing c with
  | nil =>
    rw [List.map_nil, callsRun, List.mapM_nil, pure_eq_ok, ok_map, List.append_nil]
  | cons call calls ih =>
    have hcall : (Call.order call.1 call.2).run capabilities c =
        (readOrder call).map fun o => { c with orders := c.orders ++ [o] } := by
      rw [Call.order, Call.run_ask capabilities c rfl]
      show c.order call.1 call.2 = _
      rw [Collection.order, readOrder]
      cases Direction.ofValue call.2 <;> rfl
    rw [List.map_cons, callsRun, hcall, List.mapM_cons]
    cases readOrder call with
    | error e => rfl
    | ok o =>
      rw [ok_map, ok_bind, ih, ok_bind]
      cases calls.mapM readOrder with
      | error e => rfl
      | ok orders =>
        rw [ok_map, ok_bind, pure_eq_ok, ok_map, List.append_assoc]
        rfl

/-- **What a collection gets after calls to order it**: the rows that pass its conditions, in
lexicographic order of its orders and of those that were asked for. Null is the lowest value, and rows
that are level stay as they are. -/
theorem get_of_order_calls {c : Collection} {calls : List (Value × Value)}
    {orders : List (Value × Direction)} (hread : calls.mapM readOrder = .ok orders)
    (hrows : c.passing = .ok rows) (h : ∀ o ∈ c.orders ++ orders, Orderable rows o.1) :
    ∃ d listed, callsRun capabilities c (calls.map fun call => .order call.1 call.2) = .ok d ∧
      d.get = c.project listed ∧ StablySorted (compareBy (c.orders ++ orders)) rows listed := by
  obtain ⟨listed, hordered, hsorted⟩ := stablySorted_ordered h
  refine ⟨{ c with orders := c.orders ++ orders }, listed, ?_, ?_, hsorted⟩
  · rw [run_order_calls, hread, ok_map]
  · have hpassing : ({ c with orders := c.orders ++ orders } : Collection).passing = .ok rows := hrows
    rw [get, listing, hpassing, ok_bind, hordered, ok_bind]
    rfl

/-! ### A collection of notes -/

/-- A note. -/
def note (number : Int) (name : String) (rank : Value) : Value :=
  .map [(.text "number", .int number), (.text "name", .text name), (.text "rank", rank)]

/-- Notes, not all of which have a rank. -/
def notes : Collection where
  rows := [note 1 "b" .null, note 2 "a" (.int 1), note 3 "b" (.int 2), note 4 "a" (.int 1),
    note 5 "a" .null]

theorem notes_passing : notes.passing = .ok notes.rows := by cbv

theorem notes_orderable :
    Orderable notes.rows (.text "name") ∧ Orderable notes.rows (.text "rank") := by
  have hreadable : ∀ s, ∀ row ∈ notes.rows, ∃ v, readAttribute row (.text s) = .ok v := by
    intro s row hrow
    simp only [notes, List.mem_cons, List.not_mem_nil, or_false] at hrow
    rcases hrow with rfl | rfl | rfl | rfl | rfl <;> exact ⟨_, rfl⟩
  refine ⟨⟨hreadable _, Value.comparable_of_text ?_⟩, ⟨hreadable _, Value.comparable_of_int ?_⟩⟩
  · rw [show (notes.rows.map (keyOf (.text "name"))).filter (fun v => !v.isNull) =
      [.text "b", .text "a", .text "b", .text "a", .text "a"] by with_unfolding_all rfl]
    simp
  · rw [show (notes.rows.map (keyOf (.text "rank"))).filter (fun v => !v.isNull) =
      [.int 1, .int 2, .int 1] by with_unfolding_all rfl]
    simp

/-- The notes by name, and then by rank from the highest one. -/
theorem notes_by_name_and_rank :
    [(Value.text "name", Value.null), (.text "rank", .text Direction.descending.text)].mapM readOrder =
      .ok [(.text "name", .ascending), (.text "rank", .descending)] ∧
    notes.passing = .ok notes.rows ∧
    ∃ d listed, callsRun capabilities notes
      [.order (.text "name") .null, .order (.text "rank") (.text Direction.descending.text)] = .ok d ∧
      d.get = .ok listed ∧ StablySorted
        (compareBy [(.text "name", .ascending), (.text "rank", .descending)]) notes.rows listed := by
  have hread : [(Value.text "name", Value.null),
      (.text "rank", .text Direction.descending.text)].mapM readOrder =
        .ok [(.text "name", .ascending), (.text "rank", .descending)] := by
    simp only [List.mapM_cons, List.mapM_nil, readOrder, Direction.ofValue_text]
    rfl
  have horderable : ∀ o ∈ notes.orders ++ [(Value.text "name", Direction.ascending),
      (Value.text "rank", Direction.descending)], Orderable notes.rows o.1 := by
    intro o ho
    rcases List.mem_cons.1 ho with rfl | ho
    · exact notes_orderable.1
    · rw [List.mem_singleton.1 ho]
      exact notes_orderable.2
  obtain ⟨d, listed, hd, hget, hsorted⟩ := get_of_order_calls hread notes_passing horderable
  exact ⟨hread, notes_passing, d, listed, hd, hget, hsorted⟩

example : ordered [(.text "name", .ascending), (.text "rank", .descending)] notes.rows =
    .ok [note 2 "a" (.int 1), note 4 "a" (.int 1), note 5 "a" .null, note 3 "b" (.int 2),
      note 1 "b" .null] := by cbv

end Collection

end Listing
