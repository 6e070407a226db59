import Listing.Proofs.Source.NumberedPages

/-!
# Blocks between cursors

A cursor over a collection is a position in the list of its rows. The page at a cursor is the block of
rows that begins at the position, or the one that ends there, and the cursors of the page are at the
ends of its block (`Source.exists_cursorPage`). So pages that are met one after the other fit together,
whatever their sizes are: those before a page, the page itself and those after it are all rows
(`Source.cursor_blocks`).
-/

namespace Listing

/-! ## Positions -/

namespace Collection

/-- Does a value stand for a position and a direction: null for the beginning, and anything else for
the position in the cursor that it is read as? -/
inductive StandsFor : Value → Nat → Bool → Prop
  | beginning : StandsFor .null 0 true
  | cursor {value : Value} {c : Cursor} {i : Nat} (hvalue : value ≠ .null)
    (hread : Cursor.decode value = .ok c) (hoffset : c.offset = .ok (i : Int)) :
    StandsFor value i c.forward

theorem standsFor_cursorAt (i : Nat) (forward : Bool) :
    StandsFor (cursorAt i forward).toValue i forward :=
  .cursor (by simp [Cursor.toValue]) rfl (offset_cursorAt i forward)

/-- The positions at which the block of `n` rows begins and ends that a cursor at position `i` points
to. Backward it ends there, or at the end of the list if that comes first. -/
def blockAt (length n i : Nat) (forward : Bool) : Nat × Nat :=
  if forward then (i, i + n) else (min i length - n, min i length)

theorem blockAt_le (length n i : Nat) (forward : Bool) :
    (blockAt length n i forward).1 ≤ (blockAt length n i forward).2 := by
  unfold blockAt
  split
  · exact Nat.le_add_right i n
  · exact Nat.sub_le ..

/-- The bounds of a block as positions that can be negative. -/
def boundsAt (length n i : Nat) (forward : Bool) : Int × Int :=
  ((blockAt length n i forward).1, (blockAt length n i forward).2)

theorem bounds_none (length n : Nat) : bounds length n none = .ok (boundsAt length n 0 true) := by
  simp [bounds, boundsAt, blockAt]

theorem bounds_some {cursor : Cursor} {i : Nat} (h : cursor.offset = .ok (i : Int))
    (length n : Nat) : bounds length n (some cursor) = .ok (boundsAt length n i cursor.forward) := by
  unfold boundsAt blockAt
  cases hforward : cursor.forward with
  | true => simp [bounds, h, hforward]
  | false =>
    have hstop : min (i : Int) length = (min i length : Nat) := by omega
    have hstart : max ((min i length : Nat) - (n : Int)) 0 = ((min i length - n : Nat) : Int) := by
      omega
    simp only [bounds, h, hforward, ok_bind, Bool.false_eq_true, if_false, hstop, hstart, pure_eq_ok]

end Collection

/-! ## Pages -/

/-- Does a page show the rows from position `start` up to `stop`, with cursors at both ends as far as
there are rows beyond them? -/
structure CursorPage.Shows (p : CursorPage) (all : List Value) (start stop : Nat) : Prop where
  ordered : start ≤ stop
  items : p.items = .plain (slice all start stop)
  next : p.next = if stop < all.length then (Collection.cursorAt stop true).toValue else .null
  previous : p.previous = if 0 < start then (Collection.cursorAt start false).toValue else .null

namespace CursorPage.Shows

variable {p : CursorPage} {all : List Value} {start stop : Nat}

theorem next_ne_null_iff (h : p.Shows all start stop) :
    p.next ≠ .null ↔ stop < all.length := by
  rw [h.next]
  split <;> simp [Cursor.toValue, *]

theorem previous_ne_null_iff (h : p.Shows all start stop) :
    p.previous ≠ .null ↔ 0 < start := by
  rw [h.previous]
  split <;> simp [Cursor.toValue, *]

end CursorPage.Shows

namespace Source

open Collection (StandsFor blockAt)

variable {c : Collection} {all : List Value} {p : CursorPage} {start stop : Nat}

/-- **The page at a cursor is a block of the rows.** -/
theorem exists_cursorPage (hall : c.get = .ok all) {value : Value} {i : Nat} {forward : Bool}
    (hvalue : StandsFor value i forward) {n : Nat} (hn : 0 < n) (name : Value) :
    ∃ p, (collection c).cursorPage (.int n) .null name value = .ok p ∧
      p.Shows all (blockAt all.length n i forward).1 (blockAt all.length n i forward).2 := by
  obtain ⟨rows, hrows, hproject⟩ := bind_eq_ok_iff.1 hall
  have hordered := Collection.blockAt_le all.length n i forward
  have hwindow := Collection.window_eq hproject (blockAt all.length n i forward).1
    ((blockAt all.length n i forward).2 - (blockAt all.length n i forward).1)
  rw [← slice_natCast, Nat.add_sub_cancel' hordered] at hwindow
  have hselect : c.selectAll .null = .ok c := rfl
  unfold cursorPage Collection.cursorPage
  simp only [integerOr_natCast _ hn, hselect, hrows, ok_bind, Collection.length_project hproject]
  cases hvalue with
  | beginning =>
    simp only [pure_eq_ok, ok_bind, Collection.bounds_none, Collection.boundsAt, hwindow]
    exact ⟨_, rfl, hordered, rfl, by simp, by simp⟩
  | cursor hne hread hoffset =>
    simp only [hread, ok_map, ok_bind, pure_eq_ok, Collection.bounds_some hoffset, Collection.boundsAt,
      hwindow]
    exact ⟨_, rfl, hordered, rfl, by simp, by simp⟩

/-! ## From page to page -/

/-- **The next page begins where a page ends.** -/
theorem exists_next (hall : c.get = .ok all) (h : p.Shows all start stop) (hstop : stop < all.length)
    {n : Nat} (hn : 0 < n) (name : Value) :
    ∃ p', (collection c).cursorPage (.int n) .null name p.next = .ok p' ∧
      p'.Shows all stop (stop + n) := by
  rw [h.next, if_pos hstop]
  exact exists_cursorPage hall (Collection.standsFor_cursorAt stop true) hn name

/-- **The previous page ends where a page begins**, or at the end of the rows if the page begins
beyond it. -/
theorem exists_previous (hall : c.get = .ok all) (h : p.Shows all start stop) (hstart : 0 < start)
    {n : Nat} (hn : 0 < n) (name : Value) :
    ∃ p', (collection c).cursorPage (.int n) .null name p.previous = .ok p' ∧
      p'.Shows all (min start all.length - n) (min start all.length) := by
  rw [h.previous, if_pos hstart]
  exact exists_cursorPage hall (Collection.standsFor_cursorAt start false) hn name

/-! ## Walks -/

/-- The rows of the pages on the way along the cursors in one direction, up to a page without one.
The pages may be of different sizes. -/
inductive Walks (s : Source) (name : Value) (link : CursorPage → Value) :
    (Nat → Nat) → CursorPage → List (List Value) → Prop
  | last {sizes : Nat → Nat} {p : CursorPage} (hlink : link p = .null) : Walks s name link sizes p []
  | step {sizes : Nat → Nat} {p p' : CursorPage} {rows : List Value} {blocks : List (List Value)}
    (hlink : link p ≠ .null)
    (hpage : s.cursorPage (.int (sizes 0)) .null name (link p) = .ok p')
    (hitems : p'.items = .plain rows)
    (hrest : Walks s name link (fun k => sizes (k + 1)) p' blocks) :
    Walks s name link sizes p (rows :: blocks)

theorem slice_eq_take_drop (all : List Value) (h : start ≤ stop) :
    slice all start stop = (all.drop start).take (stop - start) := by
  rw [← slice_natCast, Nat.add_sub_cancel' h]

/-- **The next cursors lead through the rows after a page.** -/
theorem exists_ahead (hall : c.get = .ok all) {sizes : Nat → Nat} (hsizes : ∀ k, 0 < sizes k)
    (name : Value) (h : p.Shows all start stop) :
    ∃ blocks, (collection c).Walks name CursorPage.next sizes p blocks ∧
      blocks.flatten = all.drop stop := by
  induction hm : all.length - stop using Nat.strongRecOn generalizing sizes p start stop with
  | ind m ih =>
    by_cases hstop : stop < all.length
    · obtain ⟨p', hp', hshows⟩ := exists_next hall h hstop (hsizes 0) name
      have hpos := hsizes 0
      obtain ⟨blocks, hwalks, hblocks⟩ := ih (all.length - (stop + sizes 0)) (by omega)
        (fun k => hsizes (k + 1)) hshows rfl
      refine ⟨_, .step (h.next_ne_null_iff.2 hstop) hp' hshows.items hwalks, ?_⟩
      rw [List.flatten_cons, hblocks, slice_natCast, ← List.drop_drop, List.take_append_drop]
    · refine ⟨[], .last (not_not.1 fun hne => hstop (h.next_ne_null_iff.1 hne)), ?_⟩
      rw [List.drop_of_length_le (by omega), List.flatten_nil]

/-- **The previous cursors lead through the rows before a page.** -/
theorem exists_behind (hall : c.get = .ok all) {sizes : Nat → Nat} (hsizes : ∀ k, 0 < sizes k)
    (name : Value) (h : p.Shows all start stop) :
    ∃ blocks, (collection c).Walks name CursorPage.previous sizes p blocks ∧
      blocks.reverse.flatten = all.take start := by
  induction hm : start using Nat.strongRecOn generalizing sizes p start stop with
  | ind m ih =>
    subst hm
    by_cases hstart : 0 < start
    -- The page before begins further ahead even if this one begins beyond the end.
    · obtain ⟨p', hp', hshows⟩ := exists_previous hall h hstart (hsizes 0) name
      have hpos := hsizes 0
      obtain ⟨blocks, hwalks, hblocks⟩ := ih (min start all.length - sizes 0) (by omega)
        (fun k => hsizes (k + 1)) hshows rfl
      refine ⟨_, .step (h.previous_ne_null_iff.2 hstart) hp' hshows.items hwalks, ?_⟩
      rw [List.reverse_cons, List.flatten_append, hblocks, List.flatten_singleton,
        slice_eq_take_drop all hshows.ordered, ← List.take_add, Nat.add_sub_cancel' hshows.ordered,
        ← List.take_eq_take_min]
    · refine ⟨[], .last (not_not.1 fun hne => hstart (h.previous_ne_null_iff.1 hne)), ?_⟩
      rw [Nat.eq_zero_of_not_pos hstart]
      rfl

/-- **Cursors cut the rows without a gap or an overlap.** The page at a cursor is a block of the
rows. There is a next cursor exactly if rows follow the block, and its page begins where the block
ends; there is a previous one exactly if the block does not begin at the start, and its page ends where
the block begins. The pages before, the page itself and those after it are all rows, whatever the
sizes of the pages. -/
theorem cursor_blocks (hall : c.get = .ok all) {value : Value} {i : Nat} {forward : Bool}
    (hvalue : StandsFor value i forward) {n : Nat} (hn : 0 < n) (name : Value) :
    ∃ p start stop, blockAt all.length n i forward = (start, stop) ∧ start ≤ stop ∧
      (collection c).cursorPage (.int n) .null name value = .ok p ∧
      p.items = .plain (slice all start stop) ∧
      (p.next ≠ .null ↔ stop < all.length) ∧ (p.previous ≠ .null ↔ 0 < start) ∧
      (∀ m : Nat, 0 < m → p.next ≠ .null → ∃ p',
        (collection c).cursorPage (.int m) .null name p.next = .ok p' ∧
        p'.items = .plain (slice all stop (stop + m : Nat))) ∧
      (∀ m : Nat, 0 < m → p.previous ≠ .null → ∃ p',
        (collection c).cursorPage (.int m) .null name p.previous = .ok p' ∧
        p'.items = .plain (slice all (min start all.length - m : Nat) (min start all.length : Nat))) ∧
      ∀ before after : Nat → Nat, (∀ k, 0 < before k) → (∀ k, 0 < after k) →
        ∃ behind ahead, (collection c).Walks name CursorPage.previous before p behind ∧
          (collection c).Walks name CursorPage.next after p ahead ∧
          behind.reverse.flatten ++ slice all start stop ++ ahead.flatten = all := by
  obtain ⟨p, hp, hshows⟩ := exists_cursorPage hall hvalue hn name
  refine ⟨p, (blockAt all.length n i forward).1, (blockAt all.length n i forward).2, rfl,
    hshows.ordered, hp, hshows.items, hshows.next_ne_null_iff, hshows.previous_ne_null_iff, ?next,
    ?previous, ?walks⟩
  case next =>
    intro m hm hne
    obtain ⟨p', hp', hshows'⟩ :=
      exists_next hall hshows (hshows.next_ne_null_iff.1 hne) hm name
    exact ⟨p', hp', hshows'.items⟩
  case previous =>
    intro m hm hne
    obtain ⟨p', hp', hshows'⟩ :=
      exists_previous hall hshows (hshows.previous_ne_null_iff.1 hne) hm name
    exact ⟨p', hp', hshows'.items⟩
  case walks =>
    intro before after hbefore hafter
    obtain ⟨behind, hbehind, hbehindRows⟩ := exists_behind hall hbefore name hshows
    obtain ⟨ahead, hahead, haheadRows⟩ := exists_ahead hall hafter name hshows
    refine ⟨behind, ahead, hbehind, hahead, ?_⟩
    rw [hbehindRows, haheadRows, slice_eq_take_drop all hshows.ordered, ← List.take_add,
      Nat.add_sub_cancel' hshows.ordered, List.take_append_drop]

/-- A page of three numbers that ends at position nine, or at the end of the list. -/
theorem cursor_blocks_beyond :
    aboveOne.get = .ok ([2, 5, 3].map fun n => .map [(.text "n", .int n)]) ∧
    StandsFor (.cursor [(.text "offset", .text "9")] false) 9 false ∧
    ∃ p, (collection aboveOne).cursorPage (.int 2) .null .null
        (.cursor [(.text "offset", .text "9")] false) = .ok p ∧
      p.items = .plain ([5, 3].map fun n => .map [(.text "n", .int n)]) ∧
      p.next = .null ∧ p.previous ≠ .null := by
  have hget : aboveOne.get =
      .ok ([2, 5, 3].map fun n => .map [(.text "n", .int n)]) := by with_unfolding_all rfl
  have hcursor : StandsFor (.cursor [(.text "offset", .text "9")] false) 9 false :=
    .cursor (c := ⟨[(.text "offset", .text "9")], false⟩) (by simp) rfl (by with_unfolding_all rfl)
  obtain ⟨p, start, stop, hblock, -, hp, hitems, hnext, hprevious, -⟩ :=
    cursor_blocks hget hcursor (n := 2) (by decide) .null
  cases hblock
  exact ⟨hget, hcursor, p, hp, hitems, not_not.1 fun hne => by simpa using hnext.1 hne,
    hprevious.2 (by decide)⟩

end Source

end Listing
