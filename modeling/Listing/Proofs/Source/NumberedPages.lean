import Listing.Proofs.Source.Window

/-!
# Numbered pages of a collection

A numbered page of a collection shows its block of the rows, whether it comes with the number of all
rows or without (`Collection.shows_gridPage`). The pages up to the last one hold all rows, every row
once, and none of them is empty unless there are no rows at all: `Source.numbered_pages`.
-/

namespace Listing

/-! ## What a page shows -/

/-- Does a page show the rows of page `k + 1` out of pages of `n` rows, and their numbers among all
rows? -/
structure NumberedPage.Shows (p : NumberedPage) (all : List Value) (n k : Nat) : Prop where
  items : p.items = .plain (slice all (k * n : Nat) ((k + 1) * n : Nat))
  more : p.more = .bool ((k + 1) * n < all.length)
  firstItem : p.firstItem = .ok (if k * n < all.length then .int (k * n + 1 : Nat) else .null)
  lastItem : p.lastItem =
    .ok (if k * n < all.length then .int (min ((k + 1) * n) all.length : Nat) else .null)

namespace Collection

variable {c : Collection} {rows all : List Value} {n : Nat}

theorem slice_block (all : List Value) (n k : Nat) :
    slice all (k * n : Nat) ((k + 1) * n : Nat) = (all.drop (k * n)).take n := by
  rw [Nat.succ_mul]
  exact slice_natCast all (k * n) n

/-- **A page of the grid shows its block**, with the number of all rows or without. -/
theorem shows_gridPage (all : List Value) (hn : 0 < n) (k : Nat) (links : Links)
    (count : Option PageCount) :
    NumberedPage.Shows { gridPage all n k links with count := count } all n k := by
  have hlength : ((all.drop (k * n)).take n).length = min n (all.length - k * n) := by
    rw [List.length_take, List.length_drop]
  have hfirst : NumberedPage.firstItem { gridPage all n k links with count := count } =
      .ok (if k * n < all.length then .int (k * n + 1 : Nat) else .null) := by
    unfold NumberedPage.firstItem
    simp only [gridPage, Rows.length, hlength]
    by_cases hlt : k * n < all.length
    · rw [if_neg (by omega), if_pos hlt]
      show Except.ok (Value.int (((k + 1 : Nat) - 1) * n + 1)) = _
      simp
    · rw [if_pos (by omega), if_neg hlt]
      rfl
  refine ⟨?items, rfl, hfirst, ?last⟩
  case items =>
    rw [slice_block]
    rfl
  case last =>
    unfold NumberedPage.lastItem
    rw [hfirst, ok_bind]
    by_cases hlt : k * n < all.length
    · rw [if_pos hlt, if_pos hlt]
      show Except.ok (Value.int ((k * n + 1 : Nat) + ((all.drop (k * n)).take n).length - 1)) = _
      rw [hlength]
      congr 2
      rw [Nat.succ_mul]
      omega
    · rw [if_neg hlt, if_neg hlt]
      rfl

theorem simplePaginate_eq (hrows : c.listing = .ok rows) (hall : c.project rows = .ok all) (n k : Nat)
    (name : Value) : c.simplePaginate n (k + 1 : Nat) name =
      .ok { gridPage all n k { name := name } with count := none } := by
  have hoffset : (((k + 1 : Nat) : Int) - 1) * (n : Int) = ((k * n : Nat) : Int) := by simp
  have hstop : ((k * n : Nat) : Int) + (n : Int) = ((k * n + n : Nat) : Int) := by simp
  have hmore : ((k * n + n : Nat) : Int) < (all.length : Int) ↔ (k + 1) * n < all.length := by
    rw [Int.ofNat_lt, Nat.succ_mul]
  unfold simplePaginate
  simp only [hrows, ok_bind, hoffset, hstop, window_eq hall, length_project hall, pure_eq_ok, hmore]
  rfl

/-! ## The blocks of the pages -/

/-- The blocks of `n` rows, of which the last one may be shorter; one empty block where there are no
rows. -/
def blocks (all : List Value) (n : Nat) : List (List Value) :=
  (List.range (max (Number.ceilingOf all.length n) 1)).map fun k => (all.drop (k * n)).take n

@[simp] theorem length_blocks (all : List Value) (n : Nat) :
    (blocks all n).length = max (Number.ceilingOf all.length n) 1 := by
  rw [blocks, List.length_map, List.length_range]

theorem mem_blocks_getElem? {all block : List Value} {k : Nat} (h : block ∈ (blocks all n)[k]?) :
    block = (all.drop (k * n)).take n := by
  rw [blocks, List.getElem?_map] at h
  obtain ⟨i, hi, rfl⟩ := Option.map_eq_some_iff.1 h
  obtain ⟨hk, rfl⟩ := List.getElem?_eq_some_iff.1 hi
  rw [List.getElem_range]

theorem flatten_take_blocks (all : List Value) (n m : Nat) :
    ((List.range m).map fun k => (all.drop (k * n)).take n).flatten = all.take (m * n) := by
  induction m with
  | zero => simp
  | succ m ih =>
    rw [List.range_succ, List.map_append, List.flatten_append, ih, Nat.succ_mul, List.take_add]
    simp

/-- **The blocks are all rows.** -/
theorem flatten_blocks (all : List Value) (hn : 0 < n) : (blocks all n).flatten = all := by
  rw [blocks, flatten_take_blocks, List.take_of_length_le]
  exact (Number.ceilingOf_le_iff hn).1 (Nat.le_max_left ..)

/-- **No block is empty** unless there are no rows. -/
theorem nil_not_mem_blocks {all : List Value} (hn : 0 < n) (hall : all ≠ []) :
    [] ∉ blocks all n := by
  intro hmem
  obtain ⟨k, hk, hempty⟩ := List.mem_map.1 hmem
  have hpos := List.length_pos_iff.2 hall
  have hlt : k * n < all.length := by
    rcases Nat.eq_zero_or_pos k with rfl | hk0
    · omega
    · exact (lt_pages_iff all.length hn hk0).1 (List.mem_range.1 hk)
  have hlength := congrArg List.length hempty
  rw [List.length_take, List.length_drop, List.length_nil] at hlength
  omega

end Collection

namespace Source

variable {c : Collection} {rows all : List Value} {n : Nat}

/-- **The numbered pages list all rows.** Page `k + 1` shows its block of the rows, with the number
of all rows or without. The blocks up to the last page are all rows, and none of them is empty unless
there are no rows. -/
theorem numbered_pages (hall : c.get = .ok all) (hlen : all.length < 2 ^ 53) (hn : 0 < n)
    (name : Value) :
    ∃ blocks : List (List Value), blocks.flatten = all ∧ (all ≠ [] → [] ∉ blocks) ∧
      ∀ k : Nat, ∃ p simple,
        (collection c).paginate (.int n) .null name (.int (k + 1 : Nat)) = .ok p ∧
        (collection c).simplePaginate (.int n) .null name (.int (k + 1 : Nat)) = .ok simple ∧
        p.Shows all n k ∧ simple.Shows all n k ∧
        p.count = some ⟨.int all.length, blocks.length⟩ ∧
        ∀ block ∈ blocks[k]?, p.items = .plain block := by
  obtain ⟨rows, hrows, hproject⟩ := bind_eq_ok_iff.1 hall
  refine ⟨Collection.blocks all n, Collection.flatten_blocks all hn, Collection.nil_not_mem_blocks hn,
    fun k => ⟨Collection.gridPage all n k { name := name },
      { Collection.gridPage all n k { name := name } with count := none }, ?counted, ?simple,
      Collection.shows_gridPage all hn k _ _, Collection.shows_gridPage all hn k _ _, ?count, ?block⟩⟩
  case counted =>
    rw [← Collection.paginate_eq hrows hproject hlen hn k name]
    unfold paginate
    rw [integerOr_natCast _ hn, integerOr_natCast _ (Nat.succ_pos k)]
    rfl
  case simple =>
    rw [← Collection.simplePaginate_eq hrows hproject n k name]
    unfold simplePaginate
    rw [integerOr_natCast _ hn, integerOr_natCast _ (Nat.succ_pos k)]
    rfl
  case count =>
    rw [Collection.length_blocks]
    rfl
  case block =>
    intro block hblock
    rw [Collection.mem_blocks_getElem? hblock]
    rfl

/-- The numbers above one among some. -/
def aboveOne : Collection where
  rows := [2, 1, 5, 3, 1].map fun n => .map [(.text "n", .int n)]
  predicates := [.compare (.text "n") .greater (.text "1")]

/-- Three numbers on pages of two. -/
theorem numbered_pages_aboveOne : ∃ all p simple, aboveOne.get = .ok all ∧ all.length = 3 ∧
    (collection aboveOne).paginate (.int 2) .null .null (.int 2) = .ok p ∧
    (collection aboveOne).simplePaginate (.int 2) .null .null (.int 2) = .ok simple ∧
    p.Shows all 2 1 ∧ simple.Shows all 2 1 := by
  have hget : aboveOne.get =
      .ok ([2, 5, 3].map fun n => .map [(.text "n", .int n)]) := by with_unfolding_all rfl
  obtain ⟨blocks, -, -, hpages⟩ := numbered_pages hget (by decide) (n := 2) (by decide) .null
  obtain ⟨p, simple, hp, hsimple, hshows, hshows', -⟩ := hpages 1
  exact ⟨_, p, simple, hget, rfl, hp, hsimple, hshows, hshows'⟩

end Source

end Listing
