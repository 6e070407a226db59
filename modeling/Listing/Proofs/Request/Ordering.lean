import Listing.Proofs.Declaration.SortKeys
import Listing.Request.Ordering

/-!
# What sort tokens mean for rows

A request asks for an order with tokens. What these list is laid over each other, token by token: a
column keeps its first place and takes its last direction (`Entries.exists_foldl_insert`). The rows that
a collection lists for the request are sorted by the columns with directions that come of it
(`Sorter.Requests.stablySorted`), so that two rows are listed as the first column says that tells them
apart (`Sorter.Requests.puts_iff`).

A further token only adds columns at the end and may turn round one that is there
(`Sorter.puts_append`). The token of an attribute that is declared for one direction and the token with
a hyphen list rows in opposite orders (`Sorter.puts_reverse`).
-/

namespace Listing

/-! ## Laying entries over others -/

namespace Entries

/-- An entry that is put among others keeps them, except that it may change the value of the first one
whose key means the same. -/
theorem exists_insert (es : Entries) (k v : Value) :
    ∃ kept more, insert es k v = kept ++ more ∧
      List.Forall₂ (fun e e' => e'.1 = e.1 ∧ (e'.2 = e.2 ∨ e.1.equal k = true ∧ e'.2 = v)) es kept := by
  induction es with
  | nil => exact ⟨[], _, rfl, .nil⟩
  | cons e es ih =>
    obtain ⟨l, w⟩ := e
    rw [insert]
    split
    · next hl =>
      refine ⟨(l, v) :: es, [], (List.append_nil _).symm, .cons ⟨rfl, .inr ⟨hl, rfl⟩⟩ ?_⟩
      exact List.forall₂_same.2 fun _ _ => ⟨rfl, .inl rfl⟩
    · obtain ⟨kept, more, hinsert, hkept⟩ := ih
      exact ⟨(l, w) :: kept, more, by rw [hinsert, List.cons_append], .cons ⟨rfl, .inl rfl⟩ hkept⟩

/-- **Entries that are laid over others** keep them in their places, with their own values or with values
that are laid over them. -/
theorem exists_foldl_insert (ps es : Entries) :
    ∃ kept more, ps.foldl (fun es p => insert es p.1 p.2) es = kept ++ more ∧
      List.Forall₂ (fun e e' => e'.1 = e.1 ∧
        (e'.2 = e.2 ∨ ∃ p ∈ ps, e.1.equal p.1 = true ∧ e'.2 = p.2)) es kept := by
  induction ps generalizing es with
  | nil =>
    exact ⟨es, [], (List.append_nil _).symm, List.forall₂_same.2 fun _ _ => ⟨rfl, .inl rfl⟩⟩
  | cons p ps ih =>
    obtain ⟨kept₁, more₁, hinsert, hkept₁⟩ := exists_insert es p.1 p.2
    obtain ⟨kept, more, hfold, hkept⟩ := ih (insert es p.1 p.2)
    rw [hinsert] at hkept
    have hlength : kept₁.length ≤ kept.length := by
      rw [← hkept.length_eq, List.length_append]
      exact Nat.le_add_right _ _
    refine ⟨kept.take kept₁.length, kept.drop kept₁.length ++ more, ?_, ?_⟩
    · rw [List.foldl_cons, hfold, ← List.append_assoc, List.take_append_drop]
    · have hfirst := List.forall₂_take kept₁.length hkept
      rw [List.take_left] at hfirst
      refine forall₂_comp (fun e e₁ e' h₁ h => ⟨h.1.trans h₁.1, ?_⟩) hkept₁ hfirst
      rcases h.2 with heq | ⟨q, hq, hequal, heq⟩
      · rw [heq]
        exact h₁.2.imp id fun ⟨hequal, hv⟩ => ⟨p, List.mem_cons_self .., hequal, hv⟩
      · exact .inr ⟨q, List.mem_cons_of_mem _ hq, by rwa [← h₁.1], heq⟩

/-- Every value comes from one of the entries or from what is laid over them. -/
theorem value_of_mem_foldl_insert {ps es : Entries} {e : Value × Value}
    (he : e ∈ ps.foldl (fun es p => insert es p.1 p.2) es) :
    (∃ e' ∈ es, e.2 = e'.2) ∨ ∃ p ∈ ps, e.2 = p.2 := by
  induction ps generalizing es with
  | nil => exact .inl ⟨e, he, rfl⟩
  | cons p ps ih =>
    rcases ih he with ⟨e', he', heq⟩ | ⟨q, hq, heq⟩
    · rcases mem_insert he' with hmem | rfl | ⟨l, w, -, -, rfl⟩
      · exact .inl ⟨e', hmem, heq⟩
      · exact .inr ⟨p, List.mem_cons_self .., heq⟩
      · exact .inr ⟨p, List.mem_cons_self .., heq⟩
    · exact .inr ⟨q, List.mem_cons_of_mem _ hq, heq⟩

/-- A change of values can be made before entries are laid over others, or after it. -/
theorem insert_map_values (f : Value → Value) (es : Entries) (k v : Value) :
    insert (es.map fun e => (e.1, f e.2)) k (f v) = (insert es k v).map fun e => (e.1, f e.2) := by
  induction es with
  | nil => rfl
  | cons e es ih =>
    obtain ⟨l, w⟩ := e
    rw [List.map_cons, insert, insert]
    split
    · rfl
    · rw [List.map_cons, ih]

theorem foldl_insert_map_values (f : Value → Value) (ps es : Entries) :
    (ps.map fun p => (p.1, f p.2)).foldl (fun es p => insert es p.1 p.2)
      (es.map fun e => (e.1, f e.2)) =
        (ps.foldl (fun es p => insert es p.1 p.2) es).map fun e => (e.1, f e.2) := by
  induction ps generalizing es with
  | nil => rfl
  | cons p ps ih => rw [List.map_cons, List.foldl_cons, List.foldl_cons, insert_map_values, ih]

end Entries

namespace Sorter

open Collection (compareBy decisive? readOrder Orderable notes)

variable {s : Sorter} {params params' : Entries} {ts : List String} {t : String}

/-! ## Requests -/

/-- Do the parameters of a request list these tokens, in whatever way they are spelled? -/
def Requests (s : Sorter) (params : Entries) (ts : List String) : Prop :=
  ∃ raw, params.parameter s.settings.keyword = .ok raw ∧
    (if raw.isEmpty then .ok [] else s.tokens raw) = .ok ts

/-- Do tokens stand for these columns with directions? All of them are declared, and what they list can
be read. -/
def StandsFor (s : Sorter) (ts : List String) (orders : List (Value × Direction)) : Prop :=
  ∃ os, s.expand ts = .ok (os, []) ∧ os.mapM readOrder = .ok orders

theorem StandsFor.ne_nil {orders : List (Value × Direction)} (h : s.StandsFor ts orders)
    (horders : orders ≠ []) : ts ≠ [] := by
  rintro rfl
  obtain ⟨os, hexpand, hread⟩ := h
  obtain ⟨rfl, -⟩ := Prod.mk.inj (Except.ok.inj hexpand)
  exact horders (Except.ok.inj hread).symm

theorem StandsFor.unique {orders orders' : List (Value × Direction)} (h : s.StandsFor ts orders)
    (h' : s.StandsFor ts orders') : orders' = orders := by
  obtain ⟨os, hexpand, hread⟩ := h
  obtain ⟨os', hexpand', hread'⟩ := h'
  obtain ⟨rfl, -⟩ := Prod.mk.inj (Except.ok.inj (hexpand.symm.trans hexpand'))
  exact Except.ok.inj (hread'.symm.trans hread)

theorem standsFor_of_expand {orders : List (Value × Direction)}
    (h : s.expand ts = .ok (Orders.ofDirections orders, [])) : s.StandsFor ts orders :=
  ⟨_, h, Orders.mapM_readOrder_ofDirections orders⟩

/-- The rows that a collection lists for a request. -/
def listing (s : Sorter) (c : Collection) (params : Entries) : Except Error (List Value) := do
  (← (s.script params).run Collection.capabilities c).listing

/-- Does a request put a row before another one? -/
def Puts (s : Sorter) (c : Collection) (params : Entries) (a b : Value) : Prop :=
  ∃ listed, s.listing c params = .ok listed ∧ [a, b].Sublist listed

/-- May a request list these tokens? More than one needs the setting for it. -/
def Allows (s : Sorter) (ts : List String) : Prop :=
  ts ≠ [] ∧ (s.settings.multisort.truthy = true ∨ ts.length = 1)

theorem Requests.script_eq (h : s.Requests params ts) (hallows : s.Allows ts) {os : Orders}
    (hexpand : s.expand ts = .ok (os, [])) : s.script params = scriptOf os := by
  obtain ⟨raw, hraw, hts⟩ := h
  have horders : s.orders raw = .ok os := by
    have hnonempty : ts.isEmpty = false := by
      rw [List.isEmpty_eq_false_iff]
      exact hallows.1
    have hmultiple : (!s.settings.multisort.truthy && decide (1 < ts.length)) = false := by
      rcases hallows.2 with hmultisort | hlength
      · rw [hmultisort]
        rfl
      · rw [hlength]
        exact Bool.and_false _
    unfold orders
    split at hts
    · exact absurd (Except.ok.inj hts).symm hallows.1
    · next hraw =>
      rw [if_neg hraw, hts, ok_bind]
      dsimp only
      rw [hnonempty, if_neg Bool.false_ne_true, hmultiple, if_neg Bool.false_ne_true, hexpand]
      rfl
  rw [script, hraw, ok_bind, horders]
  rfl

/-- **A request adds the orders that its tokens stand for.** -/
theorem Requests.listing_eq (h : s.Requests params ts) (hallows : s.Allows ts)
    {orders : List (Value × Direction)} (horders : s.StandsFor ts orders) (c : Collection) :
    s.listing c params = ({ c with orders := c.orders ++ orders } : Collection).listing := by
  obtain ⟨os, hexpand, hread⟩ := horders
  rw [listing, h.script_eq hallows hexpand, scriptOf, Script.run, Collection.run_order_calls, hread]
  rfl

variable {c : Collection} {rows : List Value} {orders : List (Value × Direction)}

/-- **What a collection lists for a request** is sorted by its own orders, and then by those that the
tokens stand for. -/
theorem Requests.stablySorted (h : s.Requests params ts) (hallows : s.Allows ts)
    (horders : s.StandsFor ts orders) (hrows : c.passing = .ok rows)
    (horderable : ∀ o ∈ c.orders ++ orders, Orderable rows o.1) :
    ∃ listed, s.listing c params = .ok listed ∧ StablySorted (compareBy (c.orders ++ orders)) rows listed := by
  obtain ⟨listed, hlisted, hsorted⟩ := Collection.stablySorted_ordered horderable
  refine ⟨listed, ?_, hsorted⟩
  have hpassing : ({ c with orders := c.orders ++ orders } : Collection).passing = .ok rows := hrows
  rw [h.listing_eq hallows horders, Collection.listing, hpassing, ok_bind, hlisted]

/-- **Rows that the tokens tell apart** are listed in their order, if the collection does not order them
itself. -/
theorem Requests.puts_iff (h : s.Requests params ts) (hallows : s.Allows ts)
    (horders : s.StandsFor ts orders) (hrows : c.passing = .ok rows)
    (horderable : ∀ o ∈ c.orders ++ orders, Orderable rows o.1) {a b : Value} (ha : a ∈ rows)
    (hb : b ∈ rows) (hlevel : compareBy c.orders a b = .eq) (hne : compareBy orders a b ≠ .eq) :
    s.Puts c params a b ↔ compareBy orders a b = .lt := by
  obtain ⟨listed, hlisted, hsorted⟩ := h.stablySorted hallows horders hrows horderable
  have hcompare : compareBy (c.orders ++ orders) a b = compareBy orders a b := by
    rw [Collection.compareBy_append, hlevel]
    rfl
  have hsublist := hsorted.sublist_iff ha hb (Collection.compareBy_swap horderable ha hb)
    (by rwa [hcompare])
  rw [hcompare] at hsublist
  rw [← hsublist]
  constructor
  · rintro ⟨listed', hlisted', hab⟩
    obtain rfl := Except.ok.inj (hlisted.symm.trans hlisted')
    exact hab
  · exact fun hab => ⟨listed, hlisted, hab⟩

/-! ## What tokens list -/

/-- Does a token list these columns with directions? -/
def Lists (s : Sorter) (t : String) (os : Orders) : Prop :=
  ∃ listed, s.tokenOrders? t = some listed ∧ Orders.Listed listed os ∧
    ∀ o ∈ os, o.1.hashable = true ∧ ∃ direction, Direction.ofValue o.2 = .ok direction

/-- Does a token list a column in a direction? -/
def ListsIn (s : Sorter) (t : String) (column : Value) (direction : Direction) : Prop :=
  ∃ os, s.Lists t os ∧ ∃ o ∈ os, column.equal o.1 = true ∧ Direction.ofValue o.2 = .ok direction

theorem exists_lists (hs : s.attributes.All SortKey.Readable) (ht : (s.tokenOrders? t).isSome = true) :
    ∃ os, s.Lists t os := by
  obtain ⟨listed, hlisted⟩ := Option.isSome_iff_exists.1 ht
  obtain ⟨k, hk, rfl⟩ := Option.map_eq_some_iff.1 hlisted
  obtain ⟨os, hos, hread⟩ := hs.get? hk (readToken t).1
  exact ⟨os, _, hlisted, hos, hread⟩

theorem exists_forall₂_lists (hs : s.attributes.All SortKey.Readable)
    (hts : ∀ t ∈ ts, (s.tokenOrders? t).isSome = true) : ∃ lists, List.Forall₂ s.Lists ts lists := by
  induction ts with
  | nil => exact ⟨[], .nil⟩
  | cons t ts ih =>
    obtain ⟨os, hos⟩ := exists_lists hs (hts t (List.mem_cons_self ..))
    obtain ⟨lists, hlists⟩ := ih fun t ht => hts t (List.mem_cons_of_mem _ ht)
    exact ⟨os :: lists, .cons hos hlists⟩

variable {lists : List Orders} {os : Orders}

/-- **What tokens list is laid over each other**, token by token. -/
theorem expandOver_eq (h : List.Forall₂ s.Lists ts lists) (es : Orders) :
    s.expandOver es ts =
      .ok (lists.flatten.foldl (fun es o => Entries.insert es o.1 o.2) es, []) := by
  induction h generalizing es with
  | nil => rfl
  | @cons t os ts lists hos _ ih =>
    obtain ⟨listed, hlisted, hos, hread⟩ := hos
    rw [expandOver, hlisted]
    dsimp only
    rw [hos.extend fun o ho => (hread o ho).1, ok_bind, ih, List.flatten_cons, List.foldl_append]

/-- Tokens that are declared stand for orders. -/
theorem exists_standsFor (h : List.Forall₂ s.Lists ts lists) : ∃ orders,
    (lists.flatten.foldl (fun es o => Entries.insert es o.1 o.2) []).mapM readOrder = .ok orders ∧
      s.StandsFor ts orders := by
  have hread : ∀ o ∈ lists.flatten, ∃ direction, Direction.ofValue o.2 = .ok direction := by
    intro o ho
    obtain ⟨os, hos, ho⟩ := List.mem_flatten.1 ho
    obtain ⟨t, -, -, -, -, hread⟩ := exists_left_of_mem h hos
    exact (hread o ho).2
  have hlaid : ∀ e ∈ lists.flatten.foldl (fun es o => Entries.insert es o.1 o.2) [],
      ∃ direction, Direction.ofValue e.2 = .ok direction := by
    intro e he
    rcases Entries.value_of_mem_foldl_insert he with ⟨e', he', -⟩ | ⟨o, ho, heq⟩
    · cases he'
    · rw [heq]
      exact hread o ho
  obtain ⟨orders, horders⟩ := Collection.exists_readOrders hlaid
  exact ⟨orders, horders, _, expandOver_eq h [], horders⟩

/-- **A further token** leaves the columns of the tokens before it in their places, in their own
directions or in one that it lists them in. -/
theorem exists_standsFor_append (h : List.Forall₂ s.Lists ts lists) (ht : s.Lists t os) :
    ∃ orders kept more, s.StandsFor ts orders ∧ s.StandsFor (ts ++ [t]) (kept ++ more) ∧
      List.Forall₂ (fun o o' => o'.1 = o.1 ∧ (o'.2 = o.2 ∨ s.ListsIn t o.1 o'.2)) orders kept := by
  have hlists : List.Forall₂ s.Lists (ts ++ [t]) (lists ++ [os]) :=
    List.rel_append h (.cons ht .nil)
  obtain ⟨orders, horders, hstands⟩ := exists_standsFor h
  obtain ⟨orders', horders', hstands'⟩ := exists_standsFor hlists
  rw [List.flatten_append, List.flatten_singleton, List.foldl_append] at horders'
  obtain ⟨kept, more, hfold, hkept⟩ := Entries.exists_foldl_insert os
    (lists.flatten.foldl (fun es o => Entries.insert es o.1 o.2) [])
  rw [hfold, List.mapM_append] at horders'
  obtain ⟨keptOrders, hkeptOrders, horders'⟩ := bind_eq_ok_iff.1 horders'
  obtain ⟨moreOrders, -, horders'⟩ := bind_eq_ok_iff.1 horders'
  obtain rfl := Except.ok.inj horders'
  refine ⟨orders, keptOrders, moreOrders, hstands, hstands', ?_⟩
  have hread : List.Forall₂ (fun o e => readOrder e = .ok o) orders _ :=
    List.Forall₂.flip (mapM_eq_ok_iff.1 horders)
  have hkeptOf : List.Forall₂ (fun o e' => ∃ e, readOrder e = .ok o ∧ e'.1 = e.1 ∧
      (e'.2 = e.2 ∨ ∃ p ∈ os, e.1.equal p.1 = true ∧ e'.2 = p.2)) orders kept :=
    forall₂_comp (fun o e e' h h' => ⟨e, h, h'⟩) hread hkept
  refine forall₂_comp ?_ hkeptOf (mapM_eq_ok_iff.1 hkeptOrders)
  rintro o e' o' ⟨e, he, hcolumn, hvalue⟩ he'
  obtain ⟨ho, hdirection⟩ := Collection.readOrder_eq_ok_iff.1 he
  obtain ⟨ho', hdirection'⟩ := Collection.readOrder_eq_ok_iff.1 he'
  refine ⟨by rw [ho', hcolumn, ho], ?_⟩
  rcases hvalue with heq | ⟨p, hp, hequal, heq⟩
  · rw [heq] at hdirection'
    exact .inl (Except.ok.inj (hdirection'.symm.trans hdirection))
  · exact .inr ⟨os, ht, p, hp, by rwa [ho], by rwa [← heq]⟩

/-! ## A further token -/

/-- **A further token breaks ties**, and may turn a column round. Where the tokens before it put a row
before another one, because the two differ in a column of theirs, the first of these columns tells in
which order the longer list of tokens puts them: in the same one, or in the opposite one if the further
token lists the column in the other direction. -/
theorem puts_append {v : Value} {ps : List (Value × Value)} (hps : Declaration.pairs v = .ok ps)
    (hkeys : ∀ p ∈ ps, Declaration.KeysHashable p.2)
    (hfinished : ∀ p ∈ ps, ∀ k, SortKey.ofValue? p.2 = some k → k.Readable)
    (hs : Declaration.sortKeys v = .ok s.attributes) (hmultisort : s.settings.multisort.truthy = true)
    (hts : ∀ u ∈ ts ++ [t], (s.tokenOrders? u).isSome = true) (hparams : s.Requests params ts)
    (hparams' : s.Requests params' (ts ++ [t])) :
    ∃ orders orders', s.StandsFor ts orders ∧ s.StandsFor (ts ++ [t]) orders' ∧
      ∀ {c : Collection} {rows : List Value}, c.passing = .ok rows →
        (∀ o ∈ c.orders ++ orders', Orderable rows o.1) →
        ∀ a ∈ rows, ∀ b ∈ rows, compareBy c.orders a b = .eq →
        ∀ column direction, decisive? orders a b = some (column, direction) → s.Puts c params a b →
          ∃ direction', decisive? orders' a b = some (column, direction') ∧
            (direction' = direction ∧ s.Puts c params' a b ∨
              direction' = direction.flip ∧ s.ListsIn t column direction' ∧ s.Puts c params' b a) := by
  have hreadable := Declaration.sortKeys_readable hps hkeys hfinished hs
  obtain ⟨lists, hlists⟩ := exists_forall₂_lists hreadable fun u hu =>
    hts u (List.mem_append_left _ hu)
  obtain ⟨os, hos⟩ := exists_lists hreadable (hts t (List.mem_append_right _ (List.mem_singleton_self t)))
  obtain ⟨orders, kept, more, hstands, hstands', hkept⟩ := exists_standsFor_append hlists hos
  refine ⟨orders, kept ++ more, hstands, hstands', ?_⟩
  intro c rows hrows horderable a ha b hb hlevel column direction hdecisive hputs
  have hown : ∀ o ∈ c.orders, Orderable rows o.1 := fun o ho =>
    horderable o (List.mem_append_left _ ho)
  have hafter : ∀ o ∈ kept ++ more, Orderable rows o.1 := fun o ho =>
    horderable o (List.mem_append_right _ ho)
  have hbefore : ∀ o ∈ orders, Orderable rows o.1 := by
    intro o ho
    obtain ⟨o', ho', hcolumn, -⟩ := exists_right_of_mem hkept ho
    rw [← hcolumn]
    exact hafter o' (List.mem_append_left _ ho')
  have hlevel' := Collection.compareBy_level_symm hown ha hb hlevel
  have hallows : s.Allows ts := ⟨hstands.ne_nil (by rintro rfl; cases hdecisive), .inl hmultisort⟩
  have hallows' : s.Allows (ts ++ [t]) :=
    ⟨List.append_ne_nil_of_right_ne_nil _ (List.cons_ne_nil _ _), .inl hmultisort⟩
  have hputs_iff := hparams.puts_iff hallows hstands hrows
    (List.forall_mem_append.2 ⟨hown, hbefore⟩) ha hb hlevel
  have hlt : compareBy orders a b = .lt := by
    refine (hputs_iff ?_).1 hputs
    rw [Collection.compareBy_of_decisive hdecisive]
    exact fun heq => Collection.order_ne_eq_of_decisive hdecisive (Direction.turn_eq_eq.1 heq)
  have hputs_iff' := fun a ha b hb => hparams'.puts_iff hallows' hstands' hrows horderable
    (a := a) (b := b) ha hb
  obtain ⟨direction', hdecisive', hsame | ⟨hflip, hlistsIn, hcompare⟩⟩ :=
    Collection.compareBy_of_forall₂ more hkept hdecisive
  · have hcompare := hsame.2.trans hlt
    refine ⟨direction', hdecisive', .inl ⟨hsame.1, ?_⟩⟩
    exact (hputs_iff' a ha b hb hlevel (by rw [hcompare]; decide)).2 hcompare
  · have hcompare : compareBy (kept ++ more) b a = .lt := by
      rw [Collection.compareBy_swap hafter ha hb, hcompare, hlt]
      rfl
    refine ⟨direction', hdecisive', .inr ⟨hflip, hlistsIn, ?_⟩⟩
    exact (hputs_iff' b hb a ha hlevel' (by rw [hcompare]; decide)).2 hcompare

/-- What notes can be ordered by: a title, which is their name, and their rank from the best one. -/
def noteAttributes : Entries :=
  [(.text "title", .text "name"), (.text "best", .map [(.text "rank", .text "desc")])]

theorem noteAttributes_declare :
    (∀ p ∈ noteAttributes, Declaration.KeysHashable p.2) ∧
    ∀ p ∈ noteAttributes, ∀ k, SortKey.ofValue? p.2 = some k → k.Readable := by
  constructor
  · refine List.forall_mem_cons.2 ⟨nofun, List.forall_mem_singleton.2 fun es hes => ?_⟩
    obtain rfl := Value.map.inj hes
    exact List.forall_mem_singleton.2 ⟨rfl, nofun⟩
  · exact List.forall_mem_cons.2 ⟨nofun, List.forall_mem_singleton.2 nofun⟩

/-- Requests for orders of notes. -/
def ofNotes : Sorter where
  settings := { multisort := .bool true }
  attributes := [
    ("title", ⟨.text "title", (Orders.ofDirections [(.text "name", .ascending)]).toValue,
      (Orders.ofDirections [(.text "name", .descending)]).toValue⟩),
    ("best", ⟨.text "best", (Orders.ofDirections [(.text "rank", .descending)]).toValue,
      (Orders.ofDirections [(.text "rank", .ascending)]).toValue⟩)]

theorem ofNotes_declared : Declaration.sortKeys (.map noteAttributes) = .ok ofNotes.attributes := by
  with_unfolding_all rfl

/-- A request for an order. -/
def sorted (tokens : String) : Entries := [(.text "sort", .text tokens)]

theorem ofNotes_requests : ofNotes.Requests (sorted "title") ["title"] ∧
    ofNotes.Requests (sorted "title,-best") ["title", "-best"] ∧
    ofNotes.Requests (sorted "title,-title") ["title", "-title"] :=
  ⟨⟨_, rfl, by with_unfolding_all rfl⟩, ⟨_, rfl, by with_unfolding_all rfl⟩,
    ⟨_, rfl, by with_unfolding_all rfl⟩⟩

theorem notes_orderable {orders : List (Value × Direction)}
    (h : ∀ o ∈ orders, o.1 = .text "name" ∨ o.1 = .text "rank") :
    ∀ o ∈ notes.orders ++ orders, Orderable notes.rows o.1 := by
  intro o ho
  rcases h o ho with heq | heq <;> rw [heq]
  · exact Collection.notes_orderable.1
  · exact Collection.notes_orderable.2

/-- A note of rank one. -/
def second : Value := Collection.note 2 "a" (.int 1)

/-- A note of rank two. -/
def third : Value := Collection.note 3 "b" (.int 2)

theorem mem_notes : second ∈ notes.rows ∧ third ∈ notes.rows := by
  simp [notes, second, third]

/-- The second note and the third one are listed as the orders say of which tokens stand. -/
theorem notes_puts_iff {orders : List (Value × Direction)} (h : ofNotes.Requests params ts)
    (hts : ts ≠ []) (hstands : ofNotes.StandsFor ts orders)
    (horders : ∀ o ∈ orders, o.1 = .text "name" ∨ o.1 = .text "rank")
    (hne : compareBy orders second third ≠ .eq) :
    ofNotes.Puts notes params second third ↔ compareBy orders second third = .lt :=
  h.puts_iff ⟨hts, .inl rfl⟩ hstands Collection.notes_passing (notes_orderable horders) mem_notes.1
    mem_notes.2 rfl hne

theorem ofNotes_title : ofNotes.StandsFor ["title"] [(.text "name", .ascending)] :=
  standsFor_of_expand (by with_unfolding_all rfl)

theorem notes_by_title : ofNotes.Puts notes (sorted "title") second third :=
  (notes_puts_iff ofNotes_requests.1 (List.cons_ne_nil _ _) ofNotes_title (by simp)
    (by decide +kernel)).2 (by decide +kernel)

/-- Notes that differ in their names are listed alike by title, and by title and rank. -/
theorem notes_by_title_and_best :
    ofNotes.Puts notes (sorted "title") second third ∧
    ofNotes.Puts notes (sorted "title,-best") second third := by
  have hstands' : ofNotes.StandsFor ["title", "-best"]
      [(.text "name", .ascending), (.text "rank", .ascending)] :=
    standsFor_of_expand (by with_unfolding_all rfl)
  obtain ⟨orders, orders', horders, horders', h⟩ := puts_append (t := "-best") (v := .map noteAttributes) rfl
    noteAttributes_declare.1 noteAttributes_declare.2 ofNotes_declared rfl (by decide +kernel)
    ofNotes_requests.1 ofNotes_requests.2.1
  obtain rfl := ofNotes_title.unique horders
  obtain rfl := hstands'.unique horders'
  obtain ⟨direction, hdecisive, hsame | hturned⟩ := h Collection.notes_passing (notes_orderable (by simp))
    _ mem_notes.1 _ mem_notes.2 rfl (.text "name") .ascending (by with_unfolding_all rfl) notes_by_title
  · exact ⟨notes_by_title, hsame.2⟩
  · have hname : decisive? [(.text "name", .ascending), (.text "rank", .ascending)] second third =
        some (.text "name", .ascending) := by with_unfolding_all rfl
    rw [hname, hturned.1] at hdecisive
    cases hdecisive

/-- A token that lists a column once more in the other direction turns rows round that differ in it. -/
theorem notes_by_title_turned_round :
    Declaration.sortKeys (.map noteAttributes) = .ok ofNotes.attributes ∧
    ofNotes.settings.multisort.truthy = true ∧
    (∀ u ∈ ["title"] ++ ["-title"], (ofNotes.tokenOrders? u).isSome = true) ∧
    ofNotes.Requests (sorted "title") ["title"] ∧
    ofNotes.Requests (sorted "title,-title") (["title"] ++ ["-title"]) ∧
    notes.passing = .ok notes.rows ∧ (second ∈ notes.rows ∧ third ∈ notes.rows) ∧
    ofNotes.StandsFor ["title"] [(.text "name", .ascending)] ∧ Orderable notes.rows (.text "name") ∧
    compareBy [(.text "name", .ascending)] second third = .lt ∧
    ofNotes.Puts notes (sorted "title") second third ∧
    ¬ ofNotes.Puts notes (sorted "title,-title") second third := by
  have hturned : ofNotes.StandsFor ["title", "-title"] [(.text "name", .descending)] :=
    standsFor_of_expand (by with_unfolding_all rfl)
  refine ⟨ofNotes_declared, rfl, by decide +kernel, ofNotes_requests.1, ofNotes_requests.2.2,
    Collection.notes_passing, mem_notes, ofNotes_title, Collection.notes_orderable.1, by decide +kernel,
    notes_by_title, fun hputs => ?_⟩
  have hgt : compareBy [(.text "name", .descending)] second third = .gt := by decide +kernel
  have hlt := (notes_puts_iff ofNotes_requests.2.2 (List.cons_ne_nil _ _) hturned (by simp)
    (by rw [hgt]; decide)).1 hputs
  rw [hgt] at hlt
  cases hlt

/-! ## A token with a hyphen -/

theorem readToken_of_ne {x : String} (hx : x.toList.head? ≠ some '-') : readToken x = (false, x) := by
  unfold readToken
  split
  · next heq => exact absurd (by rw [heq]; rfl) hx
  · rfl

theorem readToken_hyphen (x : String) : readToken ("-" ++ x) = (true, x) := by
  have hcharacters : ("-" ++ x).toList = '-' :: x.toList := String.toList_append
  unfold readToken
  rw [hcharacters]
  exact congrArg (Prod.mk true) String.ofList_toList

/-- **An attribute that turns its columns round** stands for orders, and for the same ones in the opposite
directions with a hyphen. -/
theorem exists_standsFor_hyphen {x : String} {k : SortKey} {ds : List (Value × Direction)}
    (hk : s.attributes.get? x = some k) (hturns : k.Turns ds) (hx : x.toList.head? ≠ some '-') :
    ∃ orders, s.StandsFor [x] orders ∧
      s.StandsFor ["-" ++ x] (orders.map fun o => (o.1, o.2.flip)) := by
  have hplain : s.Lists x (Orders.ofDirections ds) := by
    refine ⟨k.ascending, ?_, hturns.ascending ▸ Orders.listed_toValue _,
      Orders.forall_mem_ofDirections hturns.hashable⟩
    rw [tokenOrders?, readToken_of_ne hx]
    exact congrArg (Option.map _) hk
  have hhyphen : s.Lists ("-" ++ x) (Declaration.flipped (Orders.ofDirections ds)) := by
    rw [Declaration.flipped_ofDirections]
    refine ⟨k.descending, ?_, hturns.descending ▸ Orders.listed_toValue _,
      Orders.forall_mem_ofDirections (List.forall_mem_map.2 hturns.hashable)⟩
    rw [tokenOrders?, readToken_hyphen]
    exact congrArg (Option.map _) hk
  obtain ⟨orders, horders⟩ : ∃ orders, (Orders.ofDirections ds).foldl
      (fun es o => Entries.insert es o.1 o.2) [] = Orders.ofDirections orders := by
    refine Orders.exists_ofDirections fun e he => ?_
    rcases Entries.value_of_mem_foldl_insert he with ⟨e', he', -⟩ | ⟨p, hp, heq⟩
    · cases he'
    · obtain ⟨o, -, rfl⟩ := List.mem_map.1 hp
      exact ⟨o.2, heq⟩
  have hflipped : (Declaration.flipped (Orders.ofDirections ds)).foldl
      (fun es o => Entries.insert es o.1 o.2) [] =
        Orders.ofDirections (orders.map fun o => (o.1, o.2.flip)) := by
    rw [← Declaration.flipped_ofDirections, ← horders]
    exact Entries.foldl_insert_map_values
      (fun v => if v.equal SortKey.desc then SortKey.asc else SortKey.desc) _ []
  have hexpand := expandOver_eq (.cons hplain .nil) []
  have hexpandHyphen := expandOver_eq (.cons hhyphen .nil) []
  rw [List.flatten_singleton, horders] at hexpand
  rw [List.flatten_singleton, hflipped] at hexpandHyphen
  exact ⟨orders, standsFor_of_expand hexpand, standsFor_of_expand hexpandHyphen⟩

/-- **Descending is the reverse of ascending**, for an attribute that is declared by its name, as another
name of a column, by columns, or by columns with directions. Rows that differ in one of its columns are
listed in opposite orders for the attribute and for the attribute with a hyphen. Rows that do not differ
stay as they are for both. -/
theorem puts_reverse {v : Value} {before after : List (Value × Value)} {p : Value × Value} {x : String}
    (hps : Declaration.pairs v = .ok (before ++ p :: after)) (hname : Declaration.publicName p = some x)
    (hlast : ∀ q ∈ after, Declaration.publicName q ≠ some x) (hentry : Declaration.OneSided p.2)
    (hs : Declaration.sortKeys v = .ok s.attributes) (hx : x.toList.head? ≠ some '-')
    (hparams : s.Requests params [x]) (hparams' : s.Requests params' ["-" ++ x]) :
    ∃ orders, s.StandsFor [x] orders ∧
      ∀ {c : Collection} {rows : List Value}, c.passing = .ok rows →
        (∀ o ∈ c.orders ++ orders, Orderable rows o.1) →
        (∀ a ∈ rows, ∀ b ∈ rows, compareBy c.orders a b = .eq →
          (∃ o ∈ orders, Value.order (Collection.keyOf o.1 a) (Collection.keyOf o.1 b) ≠ .eq) →
            (s.Puts c params a b ↔ s.Puts c params' b a)) ∧
        ∃ listed listed', s.listing c params = .ok listed ∧ s.listing c params' = .ok listed' ∧
          ∀ a ∈ rows,
            listed.filter (ties (compareBy (c.orders ++ orders)) a) =
              rows.filter (ties (compareBy (c.orders ++ orders)) a) ∧
            listed'.filter (ties (compareBy (c.orders ++ orders)) a) =
              rows.filter (ties (compareBy (c.orders ++ orders)) a) := by
  obtain ⟨k, ds, hk, hturns⟩ := Declaration.sortKeys_turns hps hname hlast hentry hs
  obtain ⟨orders, hstands, hstands'⟩ := exists_standsFor_hyphen hk hturns hx
  refine ⟨orders, hstands, fun {c rows} hrows horderable => ?_⟩
  have hallows : ∀ t, s.Allows [t] := fun t => ⟨List.cons_ne_nil _ _, .inr rfl⟩
  have hown : ∀ o ∈ c.orders, Orderable rows o.1 := fun o ho =>
    horderable o (List.mem_append_left _ ho)
  have hcolumns : ∀ o ∈ orders, Orderable rows o.1 := fun o ho =>
    horderable o (List.mem_append_right _ ho)
  have horderable' : ∀ o ∈ c.orders ++ orders.map fun o => (o.1, o.2.flip), Orderable rows o.1 :=
    List.forall_mem_append.2 ⟨hown, List.forall_mem_map.2 hcolumns⟩
  refine ⟨fun a ha b hb hlevel hdiffer => ?opposite, ?level⟩
  case opposite =>
    have hne : compareBy orders a b ≠ .eq := fun heq => by
      obtain ⟨o, ho, hdiffer⟩ := hdiffer
      exact hdiffer (Collection.compareBy_eq_eq_iff.1 heq o ho)
    have hcompare : compareBy (orders.map fun o => (o.1, o.2.flip)) b a = compareBy orders a b := by
      rw [Collection.compareBy_flip, Collection.compareBy_swap hcolumns ha hb, Ordering.swap_swap]
    have hlevel' := Collection.compareBy_level_symm hown ha hb hlevel
    rw [hparams.puts_iff (hallows x) hstands hrows horderable ha hb hlevel hne,
      hparams'.puts_iff (hallows _) hstands' hrows horderable' hb ha hlevel' (by rwa [hcompare]), hcompare]
  case level =>
    obtain ⟨listed, hlisted, hsorted⟩ := hparams.stablySorted (hallows x) hstands hrows horderable
    obtain ⟨listed', hlisted', hsorted'⟩ := hparams'.stablySorted (hallows _) hstands' hrows horderable'
    have hties : ∀ a, ties (compareBy (c.orders ++ orders.map fun o => (o.1, o.2.flip))) a =
        ties (compareBy (c.orders ++ orders)) a := fun a => by
      funext b
      rw [ties, ties, Collection.compareBy_append, Collection.compareBy_append, Collection.compareBy_flip]
      cases compareBy c.orders a b <;> cases compareBy orders a b <;> rfl
    refine ⟨listed, listed', hlisted, hlisted', fun a ha => ⟨hsorted.level a ha, ?_⟩⟩
    rw [← hties]
    exact hsorted'.level a ha

/-- Notes by rank, from the best one and from the other end. -/
theorem notes_by_best_reversed :
    ofNotes.Requests (sorted "best") ["best"] ∧ ofNotes.Requests (sorted "-best") ["-" ++ "best"] ∧
    (∃ orders, ofNotes.StandsFor ["best"] orders ∧
      ∃ o ∈ orders, Value.order (Collection.keyOf o.1 second) (Collection.keyOf o.1 third) ≠ .eq) ∧
    (ofNotes.Puts notes (sorted "best") second third ↔ ofNotes.Puts notes (sorted "-best") third second) := by
  have hbest : ofNotes.Requests (sorted "best") ["best"] := ⟨_, rfl, by with_unfolding_all rfl⟩
  have hworst : ofNotes.Requests (sorted "-best") ["-" ++ "best"] := ⟨_, rfl, by with_unfolding_all rfl⟩
  have hstands : ofNotes.StandsFor ["best"] [(.text "rank", .descending)] :=
    standsFor_of_expand (by with_unfolding_all rfl)
  have hdiffer : ∃ o ∈ [(Value.text "rank", Direction.descending)],
      Value.order (Collection.keyOf o.1 second) (Collection.keyOf o.1 third) ≠ .eq :=
    ⟨_, List.mem_cons_self .., by decide +kernel⟩
  have hps : Declaration.pairs (.map noteAttributes) = .ok ([(.text "title", .text "name")] ++
      (.text "best", .map [(.text "rank", .text "desc")]) :: []) := rfl
  obtain ⟨orders, horders, h⟩ := puts_reverse (s := ofNotes) (x := "best") (v := .map noteAttributes)
    (p := (.text "best", .map [(.text "rank", .text "desc")])) hps rfl nofun
    (.directions (by decide +kernel) (List.forall_mem_singleton.2 rfl)) ofNotes_declared
    (by decide +kernel) hbest hworst
  obtain rfl := hstands.unique horders
  refine ⟨hbest, hworst, ⟨_, horders, hdiffer⟩, ?_⟩
  exact (h Collection.notes_passing (notes_orderable (by simp))).1 second mem_notes.1 third mem_notes.2
    rfl hdiffer

/-- The same attribute under a name that begins with a hyphen. -/
def hyphenated : Sorter where
  attributes := [("-rank", ⟨.text "-rank", (Orders.ofDirections [(.text "rank", .ascending)]).toValue,
    (Orders.ofDirections [(.text "rank", .descending)]).toValue⟩)]

/-- Under such a name the attribute is found with a further hyphen only. -/
theorem notes_by_hyphenated_rank :
    Declaration.sortKeys (.map [(.text "-rank", .text "rank")]) = .ok hyphenated.attributes ∧
    hyphenated.Requests (sorted "-rank") ["-rank"] ∧
    hyphenated.Requests (sorted "--rank") ["-" ++ "-rank"] ∧
    notes.passing = .ok notes.rows ∧ (second ∈ notes.rows ∧ third ∈ notes.rows) ∧
    Orderable notes.rows (.text "rank") ∧
    Value.order (Collection.keyOf (.text "rank") second) (Collection.keyOf (.text "rank") third) = .lt ∧
    hyphenated.Puts notes (sorted "--rank") third second ∧
    ¬ hyphenated.Puts notes (sorted "-rank") second third := by
  have hrequests : hyphenated.Requests (sorted "--rank") ["-" ++ "-rank"] :=
    ⟨_, rfl, by with_unfolding_all rfl⟩
  have hstands : hyphenated.StandsFor ["-" ++ "-rank"] [(.text "rank", .descending)] :=
    standsFor_of_expand (by with_unfolding_all rfl)
  have hrefused : hyphenated.listing notes (sorted "-rank") =
      .error (.query (.unsupportedSort "-rank")) := by with_unfolding_all rfl
  refine ⟨by with_unfolding_all rfl, ⟨_, rfl, by with_unfolding_all rfl⟩, hrequests,
    Collection.notes_passing, mem_notes, Collection.notes_orderable.2, by decide +kernel, ?_, ?_⟩
  · exact (hrequests.puts_iff ⟨List.cons_ne_nil _ _, .inr rfl⟩ hstands Collection.notes_passing
      (notes_orderable (by simp)) mem_notes.2 mem_notes.1 rfl (by decide +kernel)).2 (by decide +kernel)
  · rintro ⟨listed, hlisted, -⟩
    rw [hrefused] at hlisted
    cases hlisted

end Sorter

end Listing
