import Listing.Proofs.Cursor
import Listing.Proofs.Number.Compare
import Listing.Proofs.Number.Digits
import Listing.Proofs.Number.Quotient
import Listing.Proofs.Source.Columns

/-!
# Pages as windows

A page of a collection is a window on its rows: the selected columns of a part of the list are that
part of the rows with the selected columns (`Collection.window_eq`). So the page at a cursor has the
rows from the position of the cursor on (`Collection.cursorPage_null`, `cursorPage_token`), and a
numbered page those from `(page - 1) * perPage` on (`paginate_eq`).
-/

namespace Listing

theorem bound_natCast (length i : Nat) : bound length i = min i length := by
  unfold bound
  rw [if_neg (by omega)]
  simp

theorem slice_natCast {α : Type} (xs : List α) (i n : Nat) :
    slice xs i (i + n : Nat) = (xs.drop i).take n := by
  unfold slice
  dsimp only
  rw [bound_natCast, bound_natCast]
  rcases Nat.le_total i xs.length with hi | hi
  · rw [Nat.min_eq_left hi]
    rcases Nat.le_total (i + n) xs.length with hn | hn
    · rw [Nat.min_eq_left hn, Nat.add_sub_cancel_left]
    · rw [Nat.min_eq_right hn, List.take_of_length_le (by simp),
        List.take_of_length_le (by simp; omega)]
  · rw [Nat.min_eq_right hi, List.drop_of_length_le (Nat.le_refl _), List.drop_of_length_le hi,
      List.take_nil, List.take_nil]

theorem Source.integerOr_natCast (standard : Int) {n : Nat} (hn : 0 < n) :
    integerOr standard (.int n) = .ok (n : Int) := by
  have ht : (Value.int n).truthy = true := by simp [Value.truthy]; omega
  rw [integerOr, if_pos ht]
  rfl

namespace Collection

variable {c : Collection} {rows all : List Value}

theorem length_project (h : c.project rows = .ok all) : rows.length = all.length := by
  unfold project at h
  split at h
  · rw [Except.ok.inj h]
  · exact (mapM_eq_ok_iff.1 h).length_eq

/-- **A window on the list is a window on the rows.** -/
theorem window_eq (h : c.project rows = .ok all) (i n : Nat) :
    c.window rows i (i + n : Nat) = .ok (.plain ((all.drop i).take n)) := by
  unfold window
  rw [slice_natCast]
  unfold project at h ⊢
  split at h
  · obtain rfl := Except.ok.inj h
    rw [if_pos ‹_›]
    rfl
  · rw [if_neg ‹_›, mapM_take_drop h]
    rfl

/-! ## Pages at cursors -/

/-- The page of `n` rows from position `i` on. -/
def pageAt (all : List Value) (n i : Nat) (name cursor : Value) : CursorPage where
  items := .plain ((all.drop i).take n)
  perPage := .int n
  cursor := cursor
  next := if i + n < all.length then (cursorAt (i + n : Nat) true).toValue else .null
  previous := if 0 < i then (cursorAt i false).toValue else .null
  links := { name := name }

theorem cursorPage_null (hrows : c.listing = .ok rows) (hall : c.project rows = .ok all) (n : Nat)
    (name : Value) : c.cursorPage n name .null = .ok (pageAt all n 0 name .null) := by
  have hwindow := window_eq hall 0 n
  rw [Nat.zero_add] at hwindow
  unfold cursorPage
  simp only [hrows, ok_bind, pure_eq_ok, bounds, length_project hall]
  rw [show (0 : Int) = ((0 : Nat) : Int) from rfl, hwindow]
  simp [pageAt, CursorPage.ofCursor?]

theorem offset_cursorAt (i : Nat) (forward : Bool) : (cursorAt i forward).offset = .ok (i : Int) := by
  have hget : (cursorAt i forward).parameter (.text "offset") = .ok (.int i) := by
    unfold Cursor.parameter
    rw [show (cursorAt i forward).parameters.get? (.text "offset") = some (.int i) from ?_]
    · rfl
    · rw [cursorAt, Entries.get?_cons, if_pos (Value.isName_text "offset").equal_self]
  unfold Cursor.offset
  simp [hget, Value.isIntegerToken, Value.toInt]

theorem cursorPage_token (hrows : c.listing = .ok rows) (hall : c.project rows = .ok all) (n : Nat)
    (name : Value) {i : Nat} {token : String}
    (htoken : Cursor.decode (.text token) = .ok (cursorAt i true)) :
    c.cursorPage n name (.text token) =
      .ok (pageAt all n i name (cursorAt i true).toValue) := by
  have hbounds : bounds all.length n (some (cursorAt i true)) = .ok ((i : Int), (i + n : Nat)) := by
    rw [bounds, offset_cursorAt]
    simp [cursorAt]
  have hwindow := window_eq hall i n
  have hlt : (i : Int) + n < all.length ↔ i + n < all.length := by omega
  unfold cursorPage
  simp only [hrows, ok_bind, pure_eq_ok, htoken, ok_map, hbounds, hwindow, length_project hall]
  simp [pageAt, CursorPage.ofCursor?, hlt]

theorem writable_cursorAt {i : Nat} (h : i < integerLimit) (forward : Bool) :
    (cursorAt i forward).Writable where
  native := ⟨⟨_, rfl⟩, by simpa [Json.Native] using h, trivial⟩
  distinct := List.pairwise_singleton ..
  free := fun e he => by
    rw [List.mem_singleton.1 he]
    simp [Cursor.directionKey]
  nesting := by
    show max (Json.nesting (.int i)) 0 < Json.maxDepth
    simp [Json.nesting, Json.maxDepth]

/-! ## Numbered pages -/

/-- The page of `n` rows that `k` pages of as many rows stand before. -/
def gridPage (all : List Value) (n k : Nat) (links : Links) : NumberedPage where
  items := .plain ((all.drop (k * n)).take n)
  perPage := .int n
  current := .int (k + 1 : Nat)
  more := .bool ((k + 1) * n < all.length)
  count := some ⟨.int all.length, (max (Number.ceilingOf all.length n) 1 : Nat)⟩
  links := links

/-- **A numbered page lists the rows from `(page - 1) * perPage` on**, and has another one after it
exactly if there are more rows. -/
theorem paginate_eq (hrows : c.listing = .ok rows) (hall : c.project rows = .ok all)
    (hlen : all.length < 2 ^ 53) {n : Nat} (hn : 0 < n) (k : Nat) (name : Value) :
    c.paginate n (k + 1 : Nat) name = .ok (gridPage all n k { name := name }) := by
  have hoffset : (((k + 1 : Nat) : Int) - 1) * (n : Int) = ((k * n : Nat) : Int) := by
    simp
  have hstop : ((k * n : Nat) : Int) + (n : Int) = ((k * n + n : Nat) : Int) := by simp
  have hlast : lastPageOf (.int (all.length : Nat)) (.int n) =
      .ok (max (Number.ceilingOf all.length n) 1 : Nat) := lastPage_eq hlen hn
  have hmore := lt_pages_iff all.length hn (Nat.succ_pos k)
  unfold paginate
  simp only [hrows, ok_bind, hoffset, hstop, window_eq hall, length_project hall]
  unfold NumberedPage.counted
  simp only [hlast, ok_bind, pure_eq_ok, Value.less?_int]
  rw [show decide (((k + 1 : Nat) : Int) < ((max (Number.ceilingOf all.length n) 1 : Nat) : Int)) =
    decide ((k + 1) * n < all.length) from decide_eq_decide.2 (Int.ofNat_lt.trans hmore)]
  rfl

end Collection

end Listing
