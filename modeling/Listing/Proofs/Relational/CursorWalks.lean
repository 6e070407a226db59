import Listing.Proofs.Relational.OffsetPages

/-!
# Walks along the next cursors

A page ends at a row, and the next one begins with the first of the rows beyond it. Nothing is lost
at the border if the rows after that row are all beyond it, and the row holds values to compare with:
`Query.IsBorder`. From the first page on the walk along the next cursors lists every row once exactly
if this is so at all borders (`Query.Pages.walk_iff`). Rows that tie with the last one of a page, or
that hold nulls, are lost otherwise, or the next page is refused.
-/

namespace Listing

/-- Where a list has an item after `n` others that a filter keeps. -/
theorem exists_split_filter {α : Type} {p : α → Bool} {n : Nat} {as : List α}
    (h : n < (as.filter p).length) :
    ∃ before a after, as = before ++ a :: after ∧ p a = true ∧ (before.filter p).length = n := by
  induction as generalizing n with
  | nil => exact absurd h (Nat.not_lt_zero n)
  | cons a as ih =>
    by_cases ha : p a = true
    · cases n with
      | zero => exact ⟨[], a, as, rfl, ha, rfl⟩
      | succ n =>
        rw [List.filter_cons_of_pos ha, List.length_cons, Nat.succ_lt_succ_iff] at h
        obtain ⟨before, b, after, rfl, hb, hn⟩ := ih h
        exact ⟨a :: before, b, after, rfl, hb, by rw [List.filter_cons_of_pos ha, List.length_cons, hn]⟩
    · rw [List.filter_cons_of_neg ha] at h
      obtain ⟨before, b, after, rfl, hb, hn⟩ := ih h
      exact ⟨a :: before, b, after, rfl, hb, by rw [List.filter_cons_of_neg ha, hn]⟩

/-- Where a list has an item after `n` others. -/
theorem exists_split {α : Type} {n : Nat} {as : List α} (h : n < as.length) :
    ∃ before a after, as = before ++ a :: after ∧ before.length = n := by
  obtain ⟨before, a, after, has, -, hn⟩ := exists_split_filter (p := fun _ : α => true)
    (show n < (as.filter fun _ => true).length by simpa using h)
  exact ⟨before, a, after, has, by simpa using hn⟩

namespace Query

variable {q : Query} {sorting : List (Column × Bool)} {rows : List TableRow} {n k : Nat}

/-! ## Borders -/

/-- Are the rows after a row beyond it, and can they be found by it? -/
structure IsBorder (sorting : List (Column × Bool)) (row : TableRow) (after : List TableRow) :
    Prop where
  place : row.isPlace sorting = true
  beyond : ∀ other ∈ after, TableRow.isBeyond sorting row other = true

/-- Is nothing lost at the borders of pages of `n` rows, where `k` rows come before? -/
def Seamless (sorting : List (Column × Bool)) (n k : Nat) (rows : List TableRow) : Prop :=
  ∀ before row after, rows = before ++ row :: after → n ∣ k + before.length + 1 → after ≠ [] →
    IsBorder sorting row after

theorem Seamless.of_append {before rows : List TableRow} (h : Seamless sorting n k (before ++ rows)) :
    Seamless sorting n (k + before.length) rows := by
  intro before' row after hrows hdvd hne
  refine h (before ++ before') row after (by rw [hrows, List.append_assoc]) ?_ hne
  rwa [List.length_append, ← Nat.add_assoc]

/-- There are no borders within a page. -/
theorem Seamless.append {before rows : List TableRow}
    (h : Seamless sorting n (k + before.length) rows)
    (hwithin : ∀ i < before.length, ¬ n ∣ k + i + 1) : Seamless sorting n k (before ++ rows) := by
  intro before' row after hrows hdvd hne
  rcases List.append_eq_append_iff.1 hrows with ⟨inner, hbefore, hinner⟩ | ⟨inner, hbefore, hinner⟩
  · refine h inner row after hinner ?_ hne
    rwa [hbefore, List.length_append, ← Nat.add_assoc] at hdvd
  · cases inner with
    | nil =>
      refine h [] row after hinner.symm ?_ hne
      rwa [hbefore, List.append_nil]
    | cons r inner =>
      refine absurd hdvd (hwithin before'.length ?_)
      rw [hbefore]
      simp

theorem seamless_cons {row : TableRow} {after : List TableRow} :
    Seamless sorting n k (row :: after) ↔
      (n ∣ k + 1 → after ≠ [] → IsBorder sorting row after) ∧ Seamless sorting n (k + 1) after := by
  constructor
  · intro h
    exact ⟨fun hdvd => h [] row after rfl hdvd,
      Seamless.of_append (show Seamless sorting n k ([row] ++ after) from h)⟩
  · rintro ⟨hborder, h⟩ before row' after' hrows hdvd hne
    cases before with
    | nil =>
      obtain ⟨rfl, rfl⟩ := List.cons.inj hrows
      exact hborder hdvd hne
    | cons r before =>
      obtain ⟨-, hrows⟩ := List.cons.inj hrows
      refine h before row' after' hrows ?_ hne
      rw [List.length_cons] at hdvd
      rwa [show k + 1 + before.length + 1 = k + (before.length + 1) + 1 by omega]

instance (row : TableRow) (after : List TableRow) : Decidable (IsBorder sorting row after) :=
  decidable_of_iff (row.isPlace sorting = true ∧
    ∀ other ∈ after, TableRow.isBeyond sorting row other = true)
    ⟨fun h => ⟨h.1, h.2⟩, fun h => ⟨h.place, h.beyond⟩⟩

instance decidableSeamless : (rows : List TableRow) → (k : Nat) →
    Decidable (Seamless sorting n k rows)
  | [], _ => isTrue fun before _ _ hrows => by simp at hrows
  | row :: after, k => by
    have := decidableSeamless after (k + 1)
    exact decidable_of_iff ((n ∣ k + 1 → after.isEmpty = false → IsBorder sorting row after) ∧
      Seamless sorting n (k + 1) after) (by rw [seamless_cons]; simp)

/-- A page begins after a border and ends at the next one. -/
theorem not_dvd_within (hk : n ∣ k) {i : Nat} (hi : i + 1 < n) : ¬ n ∣ k + i + 1 := by
  intro hdvd
  have := Nat.le_of_dvd (by omega) ((Nat.dvd_add_right hk).1 (show n ∣ k + (i + 1) from hdvd))
  omega

/-! ## Walks -/

/-- The pages on the way along the next cursors, from a page on. `send` is what is sent for a
cursor. -/
inductive Walk (q : Query) (send : Value → Except Error Value) (n : Int) (name : Value) :
    Value → List Rows → Prop
  | last {cursor : Value} {p : CursorPage} (hpage : q.cursorPage n name cursor = .ok p)
    (hnext : p.next = .null) : Walk q send n name cursor [p.items]
  | step {cursor cursor' : Value} {p : CursorPage} {pages : List Rows}
    (hpage : q.cursorPage n name cursor = .ok p) (hnext : p.next ≠ .null)
    (hsend : send p.next = .ok cursor') (hrest : Walk q send n name cursor' pages) :
    Walk q send n name cursor (p.items :: pages)

/-- A walk is at a page. It ends there if the page has no next one, and goes on from the next cursor
otherwise. -/
theorem Walk.inv {send : Value → Except Error Value} {n : Int} {name cursor : Value}
    {pages : List Rows} (h : q.Walk send n name cursor pages) :
    ∃ p, q.cursorPage n name cursor = .ok p ∧ (p.next = .null ∧ pages = [p.items] ∨
      p.next ≠ .null ∧ ∃ cursor' rest, send p.next = .ok cursor' ∧
        q.Walk send n name cursor' rest ∧ pages = p.items :: rest) := by
  cases h with
  | last hpage hnext => exact ⟨_, hpage, .inl ⟨hnext, rfl⟩⟩
  | step hpage hnext hsend hrest => exact ⟨_, hpage, .inr ⟨hnext, _, _, hsend, hrest, rfl⟩⟩

/-- Is what is sent for the cursors at the rows read as them? -/
def Sends (q : Query) (send : Value → Except Error Value) (rows : List TableRow) : Prop :=
  ∀ row ∈ rows, ∃ value, send (q.ranked.placeAt row true).toValue = .ok value ∧
    Reads value (some (q.ranked.placeAt row true))

/-- There are no borders on a page that is not full. -/
theorem Seamless.of_length_le (hk : n ∣ k) (hrows : rows.length ≤ n) : Seamless sorting n k rows := by
  intro before row after hsplit hdvd hne
  have hlength := congrArg List.length hsplit
  have := List.length_pos_iff.2 hne
  rw [List.length_append, List.length_cons] at hlength
  exact absurd hdvd (not_dvd_within hk (by omega))

namespace Pages

variable {send : Value → Except Error Value} {name value : Value} {before after : List TableRow}
  {row : TableRow} {pages : List Rows}

theorem mem_listed : row ∈ listed q rows ↔ row ∈ rows :=
  (TableRow.sortBy_perm ..).mem_iff

theorem isPlain_sorting (h : q.Pages rows n) : ∀ row ∈ rows, row.IsPlain q.ranked.sorting :=
  fun row hrow => (h.holds row hrow).isPlain

/-- What is beyond a row comes after it. -/
theorem filter_listed (h : q.Pages rows n) (hsplit : listed q rows = before ++ row :: after)
    (hplace : row.isPlace q.ranked.sorting = true) :
    (listed q rows).filter (TableRow.isBeyond q.ranked.sorting row) =
      after.filter (TableRow.isBeyond q.ranked.sorting row) := by
  have hpairwise := TableRow.pairwise_sortBy h.isPlain_sorting
  rw [show TableRow.sortBy q.ranked.sorting rows = before ++ row :: after from hsplit] at hpairwise
  have hmem : ∀ other ∈ before ++ row :: after, other ∈ rows := fun other hother =>
    mem_listed.1 (hsplit ▸ hother)
  have hrow : row ∈ rows := hmem row (by simp)
  have hnot : ∀ other ∈ rows, (TableRow.compareLawful q.ranked.sorting other row).isLE = true →
      TableRow.isBeyond q.ranked.sorting row other = false := by
    intro other hother hle
    rw [← Bool.not_eq_true]
    intro hbeyond
    have hlt := TableRow.lt_of_isBeyond (h.isPlain_sorting row hrow)
      (h.isPlain_sorting other hother) hplace hbeyond
    rw [TableRow.compareLawful_swap, hlt] at hle
    cases hle
  have hbefore : before.filter (TableRow.isBeyond q.ranked.sorting row) = [] := by
    rw [List.filter_eq_nil_iff]
    intro other hother
    rw [hnot other (hmem other (by simp [hother]))
      ((List.pairwise_append.1 hpairwise).2.2 other hother row (List.mem_cons_self ..))]
    exact Bool.false_ne_true
  have hself : TableRow.isBeyond q.ranked.sorting row row = false := by
    refine hnot row hrow ?_
    rw [TableRow.compareLawful_self]
    rfl
  rw [hsplit, List.filter_append, hbefore, List.nil_append, List.filter_cons_of_neg]
  rw [hself]
  exact Bool.false_ne_true

theorem mem_of_split (hsplit : listed q rows = before ++ row :: after) : row ∈ rows := by
  rw [← mem_listed (q := q), hsplit]
  simp

/-- The page at the cursor of a row. -/
theorem exists_forward_after (h : q.Pages rows n) (hread : q.ranked.Readable)
    (hsplit : listed q rows = before ++ row :: after)
    (hplace : row.isPlace q.ranked.sorting = true)
    (hvalue : Reads value (some (q.ranked.placeAt row true))) (name : Value) :
    ∃ p, q.cursorPage n name value = .ok p ∧ q.Shows p (CursorPage.forwardCut q.ranked.placeAt
      (after.filter (TableRow.isBeyond q.ranked.sorting row)) n true) := by
  have hrow := mem_of_split hsplit
  have hforward := h.exists_forward hread hrow hplace hvalue name
  rwa [h.filter_listed hsplit hplace] at hforward

theorem forwardCut_last {entered : Bool} (hlast : rows.length ≤ n) {p : CursorPage}
    (hp : q.Shows p (CursorPage.forwardCut q.ranked.placeAt rows n entered)) :
    p.items.identities = rows.map q.identity ∧ p.next = .null := by
  refine ⟨hp.items.trans ?_, hp.next.trans ?_⟩
  · rw [CursorPage.forwardCut, List.take_of_length_le hlast]
  · rw [CursorPage.forwardCut, if_neg (Nat.not_lt.2 hlast)]
    rfl

theorem forwardCut_more {entered : Bool} {kept rest : List TableRow} (hkept : kept.length + 1 = n)
    (hrest : rest ≠ []) {p : CursorPage} (hp : q.Shows p
      (CursorPage.forwardCut q.ranked.placeAt (kept ++ row :: rest) n entered)) :
    p.items.identities = (kept ++ [row]).map q.identity ∧
      p.next = (q.ranked.placeAt row true).toValue := by
  have htake : (kept ++ row :: rest).take n = kept ++ [row] := by
    rw [List.take_append, List.take_of_length_le (by omega), ← hkept, Nat.add_sub_cancel_left]
    rfl
  have hmore : n < (kept ++ row :: rest).length := by
    have := List.length_pos_iff.2 hrest
    simp
    omega
  refine ⟨hp.items.trans ?_, hp.next.trans ?_⟩
  · rw [CursorPage.forwardCut, htake]
  · rw [CursorPage.forwardCut, if_pos hmore, htake, List.getLast?_concat]
    rfl

/-- The walk goes on from a page whose next cursor is at a row. -/
theorem walk_of_next (hsends : q.Sends send rows) (hrow : row ∈ rows) {cursor : Value}
    (hwalk : q.Walk send n name cursor pages) {p : CursorPage}
    (hp : q.cursorPage n name cursor = .ok p)
    (hnext : p.next = (q.ranked.placeAt row true).toValue) :
    ∃ value rest, Reads value (some (q.ranked.placeAt row true)) ∧
      q.Walk send n name value rest ∧ pages = p.items :: rest := by
  obtain ⟨p', hp', hwalk⟩ := hwalk.inv
  obtain rfl := Except.ok.inj (hp.symm.trans hp')
  rcases hwalk with ⟨hnull, -⟩ | ⟨-, value, rest, hsend, hrest, hpages⟩
  · rw [hnext] at hnull
    cases hnull
  · obtain ⟨value', hsent, hvalue⟩ := hsends row hrow
    rw [hnext, hsent] at hsend
    obtain rfl := Except.ok.inj hsend
    exact ⟨value', rest, hvalue, hrest, hpages⟩

/-- A walk goes on by a step from a page whose next cursor is at a row. -/
theorem walk_step (hsends : q.Sends send rows) (hrow : row ∈ rows) {cursor : Value} {p : CursorPage}
    (hp : q.cursorPage n name cursor = .ok p)
    (hnext : p.next = (q.ranked.placeAt row true).toValue) :
    ∃ value, Reads value (some (q.ranked.placeAt row true)) ∧
      ∀ {rest : List Rows}, q.Walk send n name value rest →
        q.Walk send n name cursor (p.items :: rest) := by
  obtain ⟨value, hsent, hvalue⟩ := hsends row hrow
  refine ⟨value, hvalue, fun hrest => .step hp ?_ (hnext ▸ hsent) hrest⟩
  rw [hnext]
  simp [Cursor.toValue]

/-- A full page at the cursor of a row: it ends at a row beyond that one, and leaves others out. -/
theorem exists_full_page (h : q.Pages rows n) (hread : q.ranked.Readable)
    (hsplit : listed q rows = before ++ row :: after)
    (hplace : row.isPlace q.ranked.sorting = true)
    (hvalue : Reads value (some (q.ranked.placeAt row true)))
    (hmore : n < (after.filter (TableRow.isBeyond q.ranked.sorting row)).length) (name : Value) :
    ∃ p inner other rest, q.cursorPage n name value = .ok p ∧ after = inner ++ other :: rest ∧
      TableRow.isBeyond q.ranked.sorting row other = true ∧
      (inner.filter (TableRow.isBeyond q.ranked.sorting row)).length + 1 = n ∧
      p.items.identities =
        (inner.filter (TableRow.isBeyond q.ranked.sorting row) ++ [other]).map q.identity ∧
      p.next = (q.ranked.placeAt other true).toValue := by
  have hsize := h.size
  obtain ⟨inner, other, rest, rfl, hother, hinner⟩ := exists_split_filter
    (show n - 1 < (after.filter (TableRow.isBeyond q.ranked.sorting row)).length by omega)
  obtain ⟨p, hp, hshows⟩ := h.exists_forward_after hread hsplit hplace hvalue name
  rw [List.filter_append, List.filter_cons_of_pos hother] at hmore hshows
  have hne : rest.filter (TableRow.isBeyond q.ranked.sorting row) ≠ [] := by
    intro hnil
    rw [hnil, List.length_append, hinner, List.length_singleton] at hmore
    omega
  obtain ⟨hitems, hnext⟩ := forwardCut_more (by omega) hne hshows
  exact ⟨p, inner, other, rest, hp, rfl, hother, by omega, hitems, hnext⟩

/-- Nothing is lost from a row on if all rows up to a border are beyond it, and nothing is lost from
there on. -/
theorem seamless_of_page (h : q.Pages rows n) {inner rest : List TableRow} {other : TableRow}
    (hsplit : listed q rows = before ++ row :: (inner ++ other :: rest))
    (hplace : row.isPlace q.ranked.sorting = true)
    (hother : TableRow.isBeyond q.ranked.sorting row other = true)
    (hall : ∀ third ∈ inner, TableRow.isBeyond q.ranked.sorting row third = true)
    (hk : n ∣ k + 1) (hinner : inner.length + 1 = n)
    (hseamless : Seamless q.ranked.sorting n (k + n) (other :: rest)) :
    Seamless q.ranked.sorting n k (row :: (inner ++ other :: rest)) := by
  have hplain : ∀ third ∈ row :: (inner ++ other :: rest), third.IsPlain q.ranked.sorting := by
    intro third hthird
    refine h.isPlain_sorting third ((mem_listed (q := q)).1 ?_)
    rw [hsplit]
    exact List.mem_append_right _ hthird
  refine seamless_cons.2 ⟨fun _ _ => ⟨hplace, fun third hthird => ?_⟩, ?_⟩
  · rcases List.mem_append.1 hthird with hthird' | hthird'
    · exact hall third hthird'
    rcases List.mem_cons.1 hthird' with rfl | hlast
    · exact hother
    -- the rows after the border are beyond it, and so beyond the row before it
    have hborder := hseamless [] other rest rfl
      (by rw [List.length_nil, show k + n + 0 + 1 = k + 1 + n by omega]
          exact Nat.dvd_add hk (Nat.dvd_refl n)) (List.ne_nil_of_mem hlast)
    exact TableRow.isBeyond_trans (hplain row (List.mem_cons_self ..)) (hplain other (by simp))
      (hplain third (List.mem_cons_of_mem _ hthird)) hplace hborder.place hother
      (hborder.beyond third hlast)
  · refine Seamless.append ?_ fun i hi => not_dvd_within hk (by omega)
    rwa [show k + 1 + inner.length = k + n by omega]

/-- **A walk from the cursor of a row** lists no more rows than come after it, and as many only if
nothing is lost at the borders. -/
theorem length_walk (h : q.Pages rows n) (hread : q.ranked.Readable) (hsends : q.Sends send rows)
    (hsplit : listed q rows = before ++ row :: after)
    (hvalue : Reads value (some (q.ranked.placeAt row true)))
    (hwalk : q.Walk send n name value pages) (hk : n ∣ k + 1) :
    (pages.flatMap Rows.identities).length ≤ after.length ∧
      ((pages.flatMap Rows.identities).length = after.length →
        Seamless q.ranked.sorting n k (row :: after)) := by
  induction hm : after.length using Nat.strongRecOn
    generalizing before row after value pages k with
  | ind m ih =>
    cases hplace : row.isPlace q.ranked.sorting with
    | false =>
      obtain ⟨p, hp, -⟩ := hwalk.inv
      rw [h.forward_refused (mem_of_split hsplit) hplace hvalue name] at hp
      cases hp
    | true =>
    by_cases hmore : n < (after.filter (TableRow.isBeyond q.ranked.sorting row)).length
    · obtain ⟨p, inner, other, rest, hp, rfl, hother, hfull, hitems, hnext⟩ :=
        h.exists_full_page hread hsplit hplace hvalue hmore name
      have hsplit' : listed q rows = (before ++ row :: inner) ++ other :: rest := by
        rw [hsplit, List.append_assoc, List.cons_append]
      obtain ⟨value', pages, hvalue', hrest, rfl⟩ :=
        walk_of_next hsends (mem_of_split hsplit') hwalk hp hnext
      rw [List.length_append, List.length_cons] at hm
      have hle := List.length_filter_le (TableRow.isBeyond q.ranked.sorting row) inner
      obtain ⟨ih, hseamless⟩ := ih rest.length (by omega) hsplit' hvalue' hrest (k := k + n)
        (by rw [show k + n + 1 = k + 1 + n by omega]; exact Nat.dvd_add hk (Nat.dvd_refl n)) rfl
      rw [List.flatMap_cons, List.length_append, hitems, List.length_map, List.length_append,
        List.length_singleton]
      refine ⟨by omega, fun heq => ?_⟩
      exact h.seamless_of_page hsplit hplace hother
        (List.length_filter_eq_length_iff.1 (by omega)) hk (by omega) (hseamless (by omega))
    · obtain ⟨p, hp, hshows⟩ := h.exists_forward_after hread hsplit hplace hvalue name
      obtain ⟨hitems, hnext⟩ := forwardCut_last (Nat.not_lt.1 hmore) hshows
      obtain ⟨p', hp', hwalk⟩ := hwalk.inv
      obtain rfl := Except.ok.inj (hp.symm.trans hp')
      rcases hwalk with ⟨-, rfl⟩ | ⟨hnotNull, -⟩
      · rw [List.flatMap_singleton, hitems, List.length_map, ← hm]
        refine ⟨List.length_filter_le .., fun heq => ?_⟩
        refine seamless_cons.2 ⟨fun _ _ => ⟨hplace, List.length_filter_eq_length_iff.1 heq⟩, ?_⟩
        exact Seamless.of_length_le hk (by omega)
      · exact absurd hnext hnotNull

/-- **From the cursor of a row a walk lists all rows after it** if nothing is lost at the borders. -/
theorem exists_walk (h : q.Pages rows n) (hread : q.ranked.Readable) (hsends : q.Sends send rows)
    (hsplit : listed q rows = before ++ row :: after)
    (hvalue : Reads value (some (q.ranked.placeAt row true))) (hk : n ∣ k + 1)
    (hne : after ≠ []) (hseamless : Seamless q.ranked.sorting n k (row :: after)) :
    ∃ pages, q.Walk send n name value pages ∧
      pages.flatMap Rows.identities = after.map q.identity := by
  induction hm : after.length using Nat.strongRecOn generalizing before row after value k with
  | ind m ih =>
    have hborder := hseamless [] row after rfl hk hne
    have hfilter := List.filter_eq_self.2 hborder.beyond
    by_cases hmore : n < after.length
    · obtain ⟨p, inner, other, rest, hp, rfl, -, hfull, hitems, hnext⟩ :=
        h.exists_full_page hread hsplit hborder.place hvalue (hfilter.symm ▸ hmore) name
      rw [List.filter_eq_self.2 fun third hthird =>
        hborder.beyond third (List.mem_append_left _ hthird)] at hfull hitems
      have hsplit' : listed q rows = (before ++ row :: inner) ++ other :: rest := by
        rw [hsplit, List.append_assoc, List.cons_append]
      rw [List.length_append, List.length_cons] at hm hmore
      have hrest : rest ≠ [] := List.length_pos_iff.1 (by omega)
      have hseamless' : Seamless q.ranked.sorting n (k + n) (other :: rest) := by
        have := Seamless.of_append
          (show Seamless q.ranked.sorting n k ((row :: inner) ++ other :: rest) from hseamless)
        rwa [List.length_cons, hfull] at this
      obtain ⟨value', hvalue', hstep⟩ := walk_step hsends (mem_of_split hsplit') hp hnext
      obtain ⟨pages, hpages, hidentities⟩ := ih rest.length (by omega) hsplit' hvalue' (k := k + n)
        (by rw [show k + n + 1 = k + 1 + n by omega]; exact Nat.dvd_add hk (Nat.dvd_refl n))
        hrest hseamless' rfl
      refine ⟨_, hstep hpages, ?_⟩
      rw [List.flatMap_cons, hitems, hidentities, ← List.map_append, List.append_assoc]
      rfl
    · obtain ⟨p, hp, hshows⟩ := h.exists_forward_after hread hsplit hborder.place hvalue name
      rw [hfilter] at hshows
      obtain ⟨hitems, hnext⟩ := forwardCut_last (Nat.not_lt.1 hmore) hshows
      exact ⟨_, .last hp hnext, by rw [List.flatMap_singleton, hitems]⟩

/-- The first page, if it is not the only one, ends at a row with others after it. -/
theorem exists_first_full (h : q.Pages rows n) (hread : q.ranked.Readable) {inner rest : List TableRow}
    {other : TableRow} (hsplit : listed q rows = inner ++ other :: rest) (hinner : inner.length + 1 = n)
    (hrest : rest ≠ []) (name : Value) :
    ∃ p, q.cursorPage n name .null = .ok p ∧
      p.items.identities = (inner ++ [other]).map q.identity ∧
      p.next = (q.ranked.placeAt other true).toValue := by
  obtain ⟨p, hp, hshows⟩ := h.exists_first hread name
  rw [hsplit] at hshows
  exact ⟨p, hp, forwardCut_more hinner hrest hshows⟩

/-- There is no walk along more than one page without cursors. -/
theorem readable_of_walk (h : q.Pages rows n) (hmore : n < rows.length)
    (hwalk : q.Walk send n name .null pages) : q.ranked.Readable := by
  by_contra hread
  obtain ⟨p, hp, -⟩ := hwalk.inv
  rw [h.first_refused hread hmore name] at hp
  cases hp

/-- **The walk from the first page lists every row once** exactly if cursors can be made and nothing
is lost at the borders, or if there is one page only. -/
theorem walk_iff (h : q.Pages rows n) (hsends : q.Sends send rows) (name : Value) :
    (∃ pages, q.Walk send n name .null pages ∧
      pages.flatMap Rows.identities = (listed q rows).map q.identity) ↔
      rows.length ≤ n ∨ q.ranked.Readable ∧ Seamless q.ranked.sorting n 0 (listed q rows) := by
  have hlength : (listed q rows).length = rows.length := (TableRow.sortBy_perm ..).length_eq
  by_cases hmore : n < rows.length
  · rw [or_iff_right (Nat.not_le.2 hmore)]
    have hsize := h.size
    obtain ⟨inner, other, rest, hrows, hinner⟩ :=
      exists_split (show n - 1 < (listed q rows).length by omega)
    have hcount : inner.length + 1 + rest.length = rows.length := by
      rw [← hlength, hrows, List.length_append, List.length_cons]
      omega
    have hrest : rest ≠ [] := List.length_pos_iff.1 (by omega)
    have hk : n ∣ n - 1 + 1 := by rw [Nat.sub_add_cancel hsize]
    constructor
    · rintro ⟨pages, hwalk, hidentities⟩
      have hread := h.readable_of_walk hmore hwalk
      obtain ⟨p, hp, hitems, hnext⟩ := h.exists_first_full hread hrows (by omega) hrest name
      obtain ⟨value, pages, hvalue, hafter, rfl⟩ :=
        walk_of_next hsends (mem_of_split hrows) hwalk hp hnext
      refine ⟨hread, ?_⟩
      have htotal := congrArg List.length hidentities
      rw [List.flatMap_cons, List.length_append, hitems, List.length_map, List.length_map,
        List.length_append, List.length_singleton] at htotal
      have hseamless := (h.length_walk hread hsends hrows hvalue hafter hk).2 (by omega)
      rw [hrows]
      refine Seamless.append ?_ fun i hi => not_dvd_within (Nat.dvd_zero n) (by omega)
      rwa [Nat.zero_add, hinner]
    · rintro ⟨hread, hseamless⟩
      obtain ⟨p, hp, hitems, hnext⟩ := h.exists_first_full hread hrows (by omega) hrest name
      obtain ⟨value, hvalue, hstep⟩ := walk_step hsends (mem_of_split hrows) hp hnext
      rw [hrows] at hseamless
      have hseamless' := Seamless.of_append hseamless
      rw [Nat.zero_add, hinner] at hseamless'
      obtain ⟨pages, hwalk, hidentities⟩ :=
        h.exists_walk hread hsends hrows hvalue hk hrest hseamless'
      refine ⟨_, hstep hwalk, ?_⟩
      rw [List.flatMap_cons, hitems, hidentities, ← List.map_append, hrows, List.append_assoc]
      rfl
  · obtain ⟨p, hp, hshows⟩ := h.exists_whole (Nat.not_lt.1 hmore) name
    refine iff_of_true ⟨_, .last hp hshows.next, ?_⟩ (.inl (Nat.not_lt.1 hmore))
    rw [List.flatMap_singleton, hshows.items]

end Pages

/-- **Where the walk along the cursors lists what the numbered pages list.** Both list every row
once, except that the walk does so only if nothing is lost at the borders of its pages. -/
theorem walk_lists_iff (h : q.IsListed rows) (hn : 0 < n) (htakes : q.TakesPages n) {answer : Rows}
    (hget : q.get = .ok answer) (name : Value) :
    ((∃ pages, q.Walk .ok n name .null pages ∧
        pages.flatMap Rows.identities = answer.identities) ↔
      rows.length ≤ n ∨ q.ranked.Readable ∧
        Seamless q.ranked.sorting n 0 (TableRow.sortBy q.sorting rows)) ∧
    (rows.length < 2 ^ 53 → ∃ pages, q.NumberedPages n name pages ∧
      pages.flatMap (·.items.identities) = answer.identities) := by
  obtain ⟨hpages, hidentities⟩ := h.pages hn htakes hget
  constructor
  · have hsends : q.Sends .ok rows := fun row _ => ⟨_, rfl, by simp [Cursor.toValue], rfl⟩
    rw [hidentities, hpages.walk_iff hsends name, h.listed_eq]
  · intro hlength
    have hlimit := htakes.limit
    have hroom := htakes.room
    obtain ⟨found, hlists, -, -⟩ := exists_lists hget htakes.sound
    obtain rfl := Except.ok.inj (h.matching.symm.trans hlists.matching)
    obtain ⟨pages, hnumbered, hall⟩ :=
      hlists.exists_numberedPages hn (by omega) (by omega) hlength name
    exact ⟨pages, hnumbered, by rw [hall, hidentities, h.listed_eq]⟩

/-- Pages of three lines end where the lines of an item end. Pages of four do not, and lose lines. -/
theorem walk_lists_iff_lines : ∃ answer, Shop.linesByItem.get = .ok answer ∧
    (∃ pages, Shop.linesByItem.Walk .ok 3 .null .null pages ∧
      pages.flatMap Rows.identities = answer.identities) ∧
    ¬ ∃ pages, Shop.linesByItem.Walk .ok 4 .null .null pages ∧
      pages.flatMap Rows.identities = answer.identities := by
  have hlisted : Shop.linesByItem.IsListed Shop.orderLineRows :=
    Shop.isListed_linesBy (by decide +kernel)
  have htakes : ∀ n ≤ 4, Shop.linesByItem.TakesPages n := fun n hn =>
    ⟨Int.le_trans (show (n : Int) + 1 ≤ 5 by omega) (by decide +kernel), by decide +kernel, nofun⟩
  have hsorted : TableRow.sortBy Shop.linesByItem.sorting Shop.orderLineRows =
      Shop.orderLineRows := sortBy_of_pairwise (by decide +kernel)
  obtain ⟨answer, hget⟩ : ∃ answer, Shop.linesByItem.get = .ok answer :=
    exists_of_isOk (by decide +kernel)
  have hthree := (walk_lists_iff hlisted (show 0 < 3 by decide) (htakes 3 (by decide)) hget .null).1
  have hfour := (walk_lists_iff hlisted (show 0 < 4 by decide) (htakes 4 (by decide)) hget .null).1
  rw [hsorted] at hthree hfour
  refine ⟨answer, hget, hthree.2 (.inr ⟨.inr (by decide +kernel), by decide +kernel⟩), ?_⟩
  intro hwalk
  rcases hfour.1 hwalk with hle | ⟨-, hseamless⟩
  · exact absurd hle (by decide)
  · exact absurd hseamless (by decide +kernel)

end Query

end Listing
