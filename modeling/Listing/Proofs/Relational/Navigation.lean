import Listing.Proofs.Relational.CursorWalks

/-!
# Moves between pages

Among rows that differ in what they hold under the order columns, and hold no nulls there, the rows
beyond a row are those after it, and the rows beyond it in the other direction those before it. So
every page that moves along cursors lead to is a block of the rows in order (`Query.Visits.block`),
from which there is a move on unless it is the last one and a move back unless it is the first one.
-/

namespace Listing

namespace CursorPage

variable {α : Type} {rows : List α} {n k : Nat} {place : α → Bool → Cursor}

/-- The page of `n` rows that `k` pages of as many rows stand before. -/
def blockCut (place : α → Bool → Cursor) (rows : List α) (n k : Nat) : Cut α where
  items := (rows.drop (k * n)).take n
  next := if (k + 1) * n < rows.length then
    ((rows.drop (k * n)).take n).getLast?.map (place · true) else none
  previous := if 0 < k then ((rows.drop (k * n)).take n).head?.map (place · false) else none

theorem forwardCut_succ :
    forwardCut place (rows.drop ((k + 1) * n)) n true = blockCut place rows n (k + 1) := by
  have hiff : n < rows.length - (k + 1) * n ↔ (k + 1 + 1) * n < rows.length := by
    rw [Nat.add_mul (k + 1) 1 n]
    omega
  simp [forwardCut, blockCut, hiff]

theorem take_drop_block (hlt : (k + 1) * n < rows.length) :
    (((rows.take ((k + 1) * n)).reverse).take n).reverse = (rows.drop (k * n)).take n := by
  have hlength : (rows.take ((k + 1) * n)).length = k * n + n := by
    rw [List.length_take, Nat.min_eq_left (Nat.le_of_lt hlt), Nat.add_mul, Nat.one_mul]
  rw [List.take_reverse, List.reverse_reverse, hlength, Nat.add_sub_cancel, List.drop_take,
    Nat.add_mul, Nat.one_mul, Nat.add_sub_cancel_left]

theorem backwardCut_reverse (hn : 0 < n) (hlt : (k + 1) * n < rows.length) :
    backwardCut place (rows.take ((k + 1) * n)).reverse n = blockCut place rows n k := by
  have hblock := take_drop_block hlt
  have htake : ((rows.take ((k + 1) * n)).reverse).take n = ((rows.drop (k * n)).take n).reverse := by
    rw [← hblock, List.reverse_reverse]
  have hiff : n < (rows.take ((k + 1) * n)).length ↔ 0 < k := by
    rw [List.length_take, Nat.min_eq_left (Nat.le_of_lt hlt), Nat.add_mul, Nat.one_mul]
    constructor
    · intro h
      refine Nat.pos_of_ne_zero ?_
      rintro rfl
      omega
    · intro h
      have := Nat.mul_pos h hn
      omega
  simp only [backwardCut, blockCut, htake, List.reverse_reverse, List.head?_reverse,
    List.getLast?_reverse, List.length_reverse, hiff, if_pos hlt]

/-- The last row of a block that others come after. -/
theorem exists_last_block (hn : 0 < n) (hlt : (k + 1) * n < rows.length) :
    ∃ before row after, rows = before ++ row :: after ∧ before.length + 1 = (k + 1) * n ∧
      ((rows.drop (k * n)).take n).getLast? = some row := by
  have hsucc : (k + 1) * n = k * n + n := by rw [Nat.add_mul, Nat.one_mul]
  obtain ⟨before, row, after, rfl, hbefore⟩ :=
    exists_split (show (k + 1) * n - 1 < rows.length by omega)
  refine ⟨before, row, after, rfl, by omega, ?_⟩
  have htake : (before ++ row :: after).take (k * n + n) = before ++ [row] := by
    rw [List.take_append, List.take_of_length_le (by omega),
      show k * n + n - before.length = 1 by omega]
    rfl
  rw [List.take_drop, htake, List.drop_append_of_le_length (by omega), List.getLast?_concat]

/-- The first row of a block. -/
theorem exists_first_block (hn : 0 < n) (hlt : k * n < rows.length) :
    ∃ before row after, rows = before ++ row :: after ∧ before.length = k * n ∧
      ((rows.drop (k * n)).take n).head? = some row := by
  obtain ⟨before, row, after, rfl, hbefore⟩ := exists_split hlt
  refine ⟨before, row, after, rfl, hbefore, ?_⟩
  rw [← hbefore, List.drop_left]
  obtain ⟨m, rfl⟩ := Nat.exists_eq_succ_of_ne_zero (Nat.ne_of_gt hn)
  rfl

end CursorPage

namespace Value

theorem IsName.isPlace {v : Value} (h : v.IsName) : v.isPlace = true := by
  rcases h with ⟨s, rfl⟩ | ⟨n, rfl⟩ <;> rfl

/-- Integers and texts that compare as equal are equal. -/
theorem eq_of_compareLawful {v w : Value} (hv : v.IsName) (hw : w.IsName)
    (h : (Cell.ofValue v).compareLawful (.ofValue w) = .eq) : v = w := by
  rcases hv with ⟨s, rfl⟩ | ⟨m, rfl⟩ <;> rcases hw with ⟨t, rfl⟩ | ⟨n, rfl⟩
  · simpa [Cell.ofValue, Cell.compareLawful, compareLex, compareOn, Cell.rank, Cell.side,
      Cell.rational, Cell.characters] using h
  · cases h
  · cases h
  · simpa [Cell.ofValue, Cell.compareLawful, compareLex, compareOn, Cell.rank, Cell.side,
      Cell.rational, Cell.characters, Exact.value_ofInt] using h

end Value

namespace TableRow

/-- Do two rows differ under one of the columns? -/
def Differ (sorting : List (Column × Bool)) (a b : TableRow) : Prop :=
  ∃ o ∈ sorting, a.get o.1.name ≠ b.get o.1.name

theorem Differ.compareLawful_ne {sorting : List (Column × Bool)} {a b : TableRow}
    (ha : ∀ o ∈ sorting, (a.get o.1.name).IsName) (hb : ∀ o ∈ sorting, (b.get o.1.name).IsName)
    (h : Differ sorting a b) : compareLawful sorting a b ≠ .eq := by
  intro heq
  obtain ⟨o, ho, hne⟩ := h
  refine hne (Value.eq_of_compareLawful (ha o ho) (hb o ho) ?_)
  clear hne ha hb
  induction sorting with
  | nil => cases ho
  | cons s sorting ih =>
    obtain ⟨column, descends⟩ := s
    rw [compareLawful_cons, Ordering.then_eq_eq] at heq
    rcases List.mem_cons.1 ho with rfl | ho
    · cases descends with
      | false => exact heq.1
      | true => exact Std.OrientedCmp.eq_comm.1 heq.1
    · exact ih heq.2 ho

end TableRow

namespace Query

variable {q : Query} {rows : List TableRow} {n k : Nat}

/-- Do the rows hold integers and texts under the columns, and do they differ in them? -/
structure Apart (sorting : List (Column × Bool)) (rows : List TableRow) : Prop where
  names : ∀ row ∈ rows, ∀ o ∈ sorting, (row.get o.1.name).IsName
  differ : rows.Pairwise (TableRow.Differ sorting)

theorem Apart.places {sorting : List (Column × Bool)} (h : Apart sorting rows) :
    ∀ row ∈ rows, row.isPlace sorting = true := fun row hrow =>
  List.all_eq_true.2 fun o ho => (h.names row hrow o ho).isPlace

theorem Apart.ne {sorting : List (Column × Bool)} (h : Apart sorting rows) :
    rows.Pairwise fun a b => TableRow.compareLawful sorting a b ≠ .eq :=
  h.differ.imp_of_mem fun ha hb hdiffer =>
    hdiffer.compareLawful_ne (h.names _ ha) (h.names _ hb)

namespace Pages

variable {before after : List TableRow} {row : TableRow}

/-- Rows that differ are in strict order. -/
theorem pairwise_listed (h : q.Pages rows n) (hapart : Apart q.ranked.sorting rows) :
    (listed q rows).Pairwise fun a b => TableRow.compareLawful q.ranked.sorting a b = .lt := by
  have hlisted := (TableRow.sortBy_perm q.ranked.sorting rows).symm.pairwise hapart.ne
    fun {a b} hne heq => hne (Std.OrientedCmp.eq_comm.1 heq)
  refine (hlisted.and (TableRow.pairwise_sortBy h.isPlain_sorting)).imp fun {a b} hab => ?_
  obtain ⟨hne, hle⟩ := hab
  cases hcompare : TableRow.compareLawful q.ranked.sorting a b with
  | lt => rfl
  | eq => exact absurd hcompare hne
  | gt =>
    rw [hcompare] at hle
    cases hle

theorem lt_of_split (h : q.Pages rows n) (hapart : Apart q.ranked.sorting rows)
    (hsplit : listed q rows = before ++ row :: after) :
    (∀ other ∈ before, TableRow.compareLawful q.ranked.sorting other row = .lt) ∧
      ∀ other ∈ after, TableRow.compareLawful q.ranked.sorting row other = .lt := by
  have hpairwise := h.pairwise_listed hapart
  rw [hsplit, List.pairwise_append, List.pairwise_cons] at hpairwise
  exact ⟨fun other hother => hpairwise.2.2 other hother row (List.mem_cons_self ..),
    hpairwise.2.1.1⟩

/-- The rows beyond a row are those after it. -/
theorem filter_forward (h : q.Pages rows n) (hapart : Apart q.ranked.sorting rows)
    (hsplit : listed q rows = before ++ row :: after) :
    (listed q rows).filter (TableRow.isBeyond q.ranked.sorting row) = after := by
  have hrow := mem_of_split hsplit
  rw [h.filter_listed hsplit (hapart.places row hrow), List.filter_eq_self]
  intro other hother
  have hmem : other ∈ rows := by
    rw [← mem_listed (q := q), hsplit]
    simp [hother]
  exact (TableRow.isBeyond_iff (h.isPlain_sorting row hrow) (h.isPlain_sorting other hmem)
    (hapart.places row hrow) (hapart.places other hmem)).2 ((h.lt_of_split hapart hsplit).2 other hother)

/-- The rows beyond a row in the other direction are those before it. -/
theorem filter_backward (h : q.Pages rows n) (hapart : Apart q.ranked.sorting rows)
    (hsplit : listed q rows = before ++ row :: after) :
    (TableRow.sortBy (TableRow.flipped q.ranked.sorting) rows).filter
      (TableRow.isBeyond (TableRow.flipped q.ranked.sorting) row) = before.reverse := by
  have hrow := mem_of_split hsplit
  have hiff : ∀ other ∈ before ++ row :: after,
      (TableRow.isBeyond (TableRow.flipped q.ranked.sorting) row other = true ↔
        TableRow.compareLawful q.ranked.sorting other row = .lt) := by
    intro other hother
    have hmem : other ∈ rows := mem_listed.1 (hsplit ▸ hother)
    rw [TableRow.isBeyond_iff (TableRow.isPlain_flipped.2 (h.isPlain_sorting row hrow))
      (TableRow.isPlain_flipped.2 (h.isPlain_sorting other hmem))
      (TableRow.isPlace_flipped.trans (hapart.places row hrow))
      (TableRow.isPlace_flipped.trans (hapart.places other hmem)), TableRow.compareLawful_flipped]
  obtain ⟨hbefore, hafter⟩ := h.lt_of_split hapart hsplit
  rw [TableRow.sortBy_flipped h.isPlain_sorting hapart.ne, List.filter_reverse]
  congr 1
  rw [show TableRow.sortBy q.ranked.sorting rows = before ++ row :: after from hsplit,
    List.filter_append, List.filter_eq_self.2 fun other hother => (hiff other (by simp [hother])).2
      (hbefore other hother), List.filter_eq_nil_iff.2, List.append_nil]
  intro other hother hbeyond
  have hlt := (hiff other (List.mem_append_right _ hother)).1 hbeyond
  rcases List.mem_cons.1 hother with rfl | hother
  · rw [TableRow.compareLawful_self] at hlt
    cases hlt
  · rw [TableRow.compareLawful_swap, hafter other hother] at hlt
    cases hlt

end Pages

/-! ## Moves -/

/-- Does a move along a cursor, sent as its token, lead to a page? -/
def IsMove (q : Query) (n : Int) (name cursor : Value) (p : CursorPage) : Prop :=
  cursor ≠ .null ∧ ∃ token, CursorPage.tokenOf cursor = .ok token ∧ q.cursorPage n name token = .ok p

theorem IsMove.unique {name cursor : Value} {p p' : CursorPage} (h : q.IsMove n name cursor p)
    (h' : q.IsMove n name cursor p') : p = p' := by
  obtain ⟨-, token, htoken, hp⟩ := h
  obtain ⟨-, token', htoken', hp'⟩ := h'
  obtain rfl := Except.ok.inj (htoken.symm.trans htoken')
  exact Except.ok.inj (hp.symm.trans hp')

namespace Pages

variable {name : Value} {p : CursorPage} {row : TableRow} {before after : List TableRow}

/-- A cursor at a row is read from its token. -/
theorem exists_tokenOf (h : q.Pages rows n) (hfree : q.ranked.Free)
    (hapart : Apart q.ranked.sorting rows) (hrow : row ∈ rows) (forward : Bool) :
    ∃ value, CursorPage.tokenOf (q.ranked.placeAt row forward).toValue = .ok value ∧
      Reads value (some (q.ranked.placeAt row forward)) := by
  obtain ⟨token, hencode, -, hdecode⟩ := Cursor.exists_token
    (writable_placeAt (h.ordered.ranked h.key) h.named hfree (h.holds row hrow)
      (hapart.names row hrow) forward)
  refine ⟨.text token, ?_, by simp, hdecode⟩
  show (q.ranked.placeAt row forward).encode.bind (fun token => .ok (Value.text token)) = _
  rw [hencode]
  rfl

/-- Does a page show the block that `k` blocks stand before? -/
def ShowsBlock (q : Query) (rows : List TableRow) (n k : Nat) (p : CursorPage) : Prop :=
  q.Shows p (CursorPage.blockCut q.ranked.placeAt (listed q rows) n k)

theorem length_listed : (listed q rows).length = rows.length := (TableRow.sortBy_perm ..).length_eq

theorem ShowsBlock.items (h : ShowsBlock q rows n k p) : p.items.identities =
    (((listed q rows).map q.identity).drop (k * n)).take n := by
  rw [Shows.items h, CursorPage.blockCut, List.map_take, List.map_drop]

theorem ShowsBlock.next_eq (h : ShowsBlock q rows n k p) (hn : 0 < n)
    (hlt : (k + 1) * n < rows.length) : ∃ before row after,
      listed q rows = before ++ row :: after ∧ before.length + 1 = (k + 1) * n ∧
        p.next = (q.ranked.placeAt row true).toValue := by
  obtain ⟨before, row, after, hsplit, hbefore, hlast⟩ :=
    CursorPage.exists_last_block hn (show (k + 1) * n < (listed q rows).length by rwa [length_listed])
  refine ⟨before, row, after, hsplit, hbefore, h.next.trans ?_⟩
  rw [CursorPage.blockCut, if_pos (by rwa [length_listed]), hlast]
  rfl

theorem ShowsBlock.previous_eq (h : ShowsBlock q rows n k p) (hn : 0 < n) (hk : 0 < k)
    (hlt : k * n < rows.length) : ∃ before row after,
      listed q rows = before ++ row :: after ∧ before.length = k * n ∧
        p.previous = (q.ranked.placeAt row false).toValue := by
  obtain ⟨before, row, after, hsplit, hbefore, hfirst⟩ :=
    CursorPage.exists_first_block hn (show k * n < (listed q rows).length by rwa [length_listed])
  refine ⟨before, row, after, hsplit, hbefore, h.previous.trans ?_⟩
  rw [CursorPage.blockCut, if_pos hk, hfirst]
  rfl

/-- **From a block that is not the last one there is a move on.** -/
theorem exists_next (h : q.Pages rows n) (hread : q.ranked.Readable) (hfree : q.ranked.Free)
    (hapart : Apart q.ranked.sorting rows) (hp : ShowsBlock q rows n k p)
    (hlt : (k + 1) * n < rows.length) (name : Value) :
    ∃ p', q.IsMove n name p.next p' ∧ ShowsBlock q rows n (k + 1) p' := by
  obtain ⟨before, row, after, hsplit, hbefore, hnext⟩ := hp.next_eq h.size hlt
  have hrow := mem_of_split hsplit
  obtain ⟨value, htoken, hvalue⟩ := h.exists_tokenOf hfree hapart hrow true
  obtain ⟨p', hp', hshows⟩ := h.exists_forward hread hrow (hapart.places row hrow) hvalue name
  rw [h.filter_forward hapart hsplit] at hshows
  have hafter : after = (listed q rows).drop ((k + 1) * n) := by
    rw [hsplit, ← hbefore, List.append_cons, ← List.length_singleton (a := row), ← List.length_append,
      List.drop_left]
  rw [hafter, CursorPage.forwardCut_succ] at hshows
  exact ⟨p', ⟨by rw [hnext]; simp [Cursor.toValue], value, hnext ▸ htoken, hp'⟩, hshows⟩

/-- **From a block that is not the first one there is a move back.** -/
theorem exists_previous (h : q.Pages rows n) (hread : q.ranked.Readable) (hfree : q.ranked.Free)
    (hapart : Apart q.ranked.sorting rows) (hp : ShowsBlock q rows n (k + 1) p)
    (hlt : (k + 1) * n < rows.length) (name : Value) :
    ∃ p', q.IsMove n name p.previous p' ∧ ShowsBlock q rows n k p' := by
  obtain ⟨before, row, after, hsplit, hbefore, hprevious⟩ :=
    hp.previous_eq h.size (Nat.succ_pos k) hlt
  have hrow := mem_of_split hsplit
  obtain ⟨value, htoken, hvalue⟩ := h.exists_tokenOf hfree hapart hrow false
  obtain ⟨p', hp', hshows⟩ := h.exists_backward hread hrow (hapart.places row hrow) hvalue name
  have htake : before = (listed q rows).take ((k + 1) * n) := by
    rw [hsplit, ← hbefore, List.take_left]
  rw [h.filter_backward hapart hsplit, htake,
    CursorPage.backwardCut_reverse h.size (by rwa [length_listed])] at hshows
  exact ⟨p', ⟨by rw [hprevious]; simp [Cursor.toValue], value, hprevious ▸ htoken, hp'⟩, hshows⟩

end Pages

end Query

end Listing
