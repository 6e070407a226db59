import Listing.Proofs.Relational.CursorCriterion

/-!
# Looking rows up

A query that answers all its rows answers any window of them as well, in the same order:
`Query.Lists.exists_fetch`. What it takes is collected in `Query.Lists`, and of a query that has an
answer nothing more is asked than that the relations which are loaded along can be looked up whatever
the rows are (`Query.exists_lists`). A further criterion leaves out the rows that do not meet it
(`Query.Lists.filtered_of_quiet`).
-/

namespace Listing

/-! ## Criteria -/

namespace Criterion

theorem fault?_eq_none_iff {c : Criterion} {further : List Parameter} {meaningless : Bool} :
    c.fault? further meaningless = none ↔ (∀ p ∈ c.parameters ++ further, p.IsTaken) ∧
      meaningless = false ∧ (c.parameters ++ further).length ≤ Parameter.countLimit := by
  unfold fault?
  generalize c.parameters ++ further = ps
  dsimp only
  split
  · next hany =>
    simp only [reduceCtorEq, false_iff]
    rintro ⟨htaken, -⟩
    obtain ⟨p, hp, hunfit⟩ := List.any_eq_true.1 hany
    split at hunfit
    · exact (htaken _ hp).fits rfl
    · cases hunfit
  · next hany =>
    split
    · next hrefused =>
      simp only [reduceCtorEq, false_iff]
      rintro ⟨-, hmeaningful, hcount⟩
      simp [hmeaningful] at hrefused
      omega
    · next htaken =>
      simp only [Bool.or_eq_true, decide_eq_true_eq, not_or, Bool.not_eq_true, Nat.not_lt] at htaken
      rw [List.findSome?_eq_none_iff]
      constructor
      · intro hrefusal
        refine ⟨fun p hp => ⟨?_, hrefusal p hp⟩, htaken⟩
        rintro rfl
        exact hany (List.any_eq_true.2 ⟨_, hp, rfl⟩)
      · exact fun h p hp => (h.1 p hp).notRefused

theorem allOverrun_append (db : Content) (row : TableRow) (as bs : List Criterion) :
    allOverrun db row (as ++ bs) =
      (allOverrun db row as || (allHold db row as && allOverrun db row bs)) := by
  induction as with
  | nil => simp [allOverrun, allHold]
  | cons a as ih =>
    simp only [List.cons_append, allOverrun, allHold, ih]
    cases overruns db row a <;> cases holds db row a <;> simp

theorem select_eq_ok_iff {db : Content} {rows found : List TableRow} {c : Criterion} :
    c.select db rows = .ok found ↔
      (∀ row ∈ rows, c.overruns db row = false) ∧ rows.filter (c.holds db) = found := by
  unfold select
  split
  · next h =>
    obtain ⟨row, hrow, h⟩ := List.any_eq_true.1 h
    simp only [reduceCtorEq, false_iff, not_and]
    intro hquiet
    rw [hquiet row hrow] at h
    cases h
  · next h =>
    rw [List.any_eq_true, not_exists] at h
    simp only [Except.ok.injEq]
    exact ⟨fun hfound => ⟨fun row hrow => by simpa using fun hover => h row ⟨hrow, hover⟩, hfound⟩,
      fun hfound => hfound.2⟩

/-- A criterion that can be looked for in every row leaves out the rows that do not meet it. -/
theorem select_insert {db : Content} {rows found : List TableRow} {before after : List Criterion}
    {c : Criterion} (hquiet : ∀ row ∈ rows, c.overruns db row = false)
    (h : (Criterion.all (before ++ after)).select db rows = .ok found) :
    (Criterion.all (before ++ c :: after)).select db rows = .ok (found.filter (c.holds db)) := by
  obtain ⟨hothers, rfl⟩ := select_eq_ok_iff.1 h
  refine select_eq_ok_iff.2 ⟨fun row hrow => ?_, ?_⟩
  · have hothers := hothers row hrow
    rw [overruns, allOverrun_append, Bool.or_eq_false_iff] at hothers ⊢
    refine ⟨hothers.1, ?_⟩
    rw [allOverrun, hquiet row hrow, Bool.false_or]
    cases hbefore : allHold db row before with
    | false => rfl
    | true =>
      rw [hbefore, Bool.true_and] at hothers
      rw [hothers.2, Bool.and_false, Bool.and_false]
  · rw [List.filter_filter]
    congr 1
    funext row
    rw [holds, holds, allHold_append, allHold_append, allHold, Bool.and_left_comm]

end Criterion

/-! ## Related rows -/

/-- Can related rows be looked up as a loading says, whatever they are? -/
structure Loading.IsSound (db : Content) (l : Loading) : Prop where
  straight : l.misled = false
  taken : l.criterion.fault? [] false = none
  quiet : ∀ table, ∀ row ∈ db.rowsOf table, l.criterion.overruns db row = false

namespace Database

variable {db : Database}

theorem mem_endingAt {r : Relation} {ls : List Loading} {l : Loading}
    (h : l ∈ Loading.endingAt r ls) : l ∈ ls := (List.mem_filter.1 h).1

theorem isSound_beyond {r : Relation} {ls : List Loading} (h : ∀ l ∈ ls, l.IsSound db.content) :
    ∀ l ∈ Loading.beyond r ls, l.IsSound db.content := by
  intro l hl
  obtain ⟨m, hm, hl⟩ := List.mem_filterMap.1 hl
  split at hl
  · split at hl
    · obtain rfl := Option.some.inj hl
      exact ⟨(h m hm).straight, (h m hm).taken, (h m hm).quiet⟩
    · cases hl
  · cases hl

/-- **Sound loadings do not fail.** -/
theorem exists_loadTo (depth : Nat) {ls : List Loading} (h : ∀ l ∈ ls, l.IsSound db.content)
    (e : Entity) (parents : List Parent) (store : Store) :
    ∃ store', db.loadTo depth ls e parents store = .ok store' := by
  induction depth generalizing ls e parents store with
  | zero => exact ⟨store, rfl⟩
  | succ depth ih =>
    unfold loadTo
    refine exists_foldlM (fun store r _ => ?_) store
    split
    · next last target hlast htarget =>
      have hsound := h last (mem_endingAt (List.mem_of_getLast? hlast))
      have hstraight : (Loading.endingAt r ls).any (·.misled) = false := by
        rw [List.any_eq_false]
        intro l hl
        rw [(h l (mem_endingAt hl)).straight]
        exact Bool.false_ne_true
      have hselect : ∀ p : TableRow → Bool, ∃ rows, last.criterion.select db.content
          ((db.content.rowsOf target.table).filter p) = .ok rows := fun p =>
        ⟨_, Criterion.select_eq_ok_iff.2
          ⟨fun row hrow => hsound.quiet _ row (List.mem_filter.1 hrow).1, rfl⟩⟩
      simp only [hstraight, hsound.taken, Bool.false_eq_true, if_false, ite_self]
      obtain ⟨rows, hrows⟩ := hselect fun other => (asking e r store parents).any fun p =>
        r.link.joins db.content p.row other
      rw [hrows, ok_bind]
      obtain ⟨store', hstore⟩ := ih (isSound_beyond h) target
        (rows.map fun row => ⟨row, !store.contains (target.keyOf row)⟩)
        (target.fillAll ((Loading.endingAt r ls).flatMap (·.columns)) rows store)
      rw [hstore]
      exact ⟨_, rfl⟩
    · exact ⟨store, rfl⟩

end Database

/-- What tells the rows of an answer apart: the rows themselves, or the keys of the objects. -/
def Rows.identities : Rows → List Value
  | .plain rows => rows
  | .graph g => g.rows.map .text

namespace Query

variable {q : Query} {rows : List TableRow}

/-! ## Lists of rows -/

/-- Does a query list rows, though not in order? -/
structure Lists (q : Query) (rows : List TableRow) : Prop where
  connected : q.connected = true
  straight : q.misled = false
  meaningful : q.aggregates.any Aggregate.meaningless = false
  matching : q.matching = .ok rows
  taken : ∀ p ∈ q.criterion.parameters, p.IsTaken
  computed : q.entity.mapped = true → ∀ row ∈ rows, ∀ a ∈ q.aggregates,
    ∃ v, a.value q.db.content q.entity row = .ok v
  sound : ∀ l ∈ q.loadings.flatten, l.IsSound q.db.content

theorem Lists.exists_objects (h : q.Lists rows) (hmapped : q.entity.mapped = true)
    {some : List TableRow} (hsome : ∀ row ∈ some, row ∈ rows) :
    ∃ store, q.objects some = .ok store := by
  have hfold : ∀ store, ∃ store', some.foldlM (fun (s : Store) row =>
      q.aggregates.foldlM (fun (s : Store) a => do
      let v ← a.value q.db.content q.entity row
      return s.set (q.entity.keyOf row) a.label (.value v)) s) store = Except.ok store' := by
    refine exists_foldlM fun store row hrow => exists_foldlM (fun store a ha => ?_) store
    obtain ⟨v, hv⟩ := h.computed hmapped row (hsome row hrow) a ha
    rw [hv]
    exact ⟨_, rfl⟩
  unfold objects
  dsimp only
  split
  · exact hfold _
  · obtain ⟨store, hstore⟩ := Database.exists_loadTo (Loading.depth q.loadings.flatten) h.sound
      q.entity (some.map fun row => ⟨row, true⟩) (q.entity.fillAll q.selectedColumnList some [])
    unfold Database.load
    rw [hstore]
    exact hfold _

theorem mem_cut {α : Type} {w : Window} {as : List α} {a : α} (h : a ∈ w.cut as) : a ∈ as := by
  unfold Window.cut at h
  dsimp only at h
  split at h
  · split at h
    · exact List.mem_of_mem_drop h
    · exact List.mem_of_mem_drop (List.mem_of_mem_take h)
  · exact List.mem_of_mem_drop h

theorem cut_natCast {α : Type} (n m : Nat) (as : List α) :
    (⟨some (n : Int), some (m : Int)⟩ : Window).cut as = (as.drop m).take n := by
  have hneg : ¬ (n : Int) < 0 := by omega
  simp only [Window.cut, Option.getD_some, if_neg hneg, Int.toNat_natCast]

/-- The bounds of a window are taken if they are integers that a database holds. -/
theorem isTaken_bounds {n m : Nat} (hn : (n : Int) ≤ Parameter.maxInteger)
    (hm : (m : Int) ≤ Parameter.maxInteger) :
    ∀ p ∈ (⟨some (n : Int), some (m : Int)⟩ : Window).parameters, p.IsTaken := by
  have hzero : -Parameter.maxInteger - 1 ≤ 0 := by decide +kernel
  intro p hp
  rcases List.mem_pair.1 hp with rfl | rfl
  · exact Parameter.isTaken_integer (by rw [Option.getD_some]; omega) hn
  · exact Parameter.isTaken_integer (by rw [Option.getD_some]; omega) hm

/-- **The rows are counted.** -/
theorem Lists.count_eq (h : q.Lists rows)
    (hcount : q.criterion.parameters.length ≤ Parameter.countLimit) : q.count = .ok rows.length := by
  have hfault : q.criterion.fault? [] false = none := by
    rw [Criterion.fault?_eq_none_iff, List.append_nil]
    exact ⟨h.taken, rfl, hcount⟩
  unfold count requireSession
  rw [h.connected, hfault, h.matching]
  rfl

/-- **A window is cut out of the rows in order.** -/
theorem Lists.exists_fetch (h : q.Lists rows) {w : Window} (hw : ∀ p ∈ w.parameters, p.IsTaken)
    (hcount : q.criterion.parameters.length + w.parameters.length ≤ Parameter.countLimit) :
    ∃ store, q.fetch w = .ok ⟨w.cut (TableRow.sortBy q.sorting rows), store⟩ := by
  have hfault : q.criterion.fault? w.parameters (q.aggregates.any Aggregate.meaningless) = none := by
    refine Criterion.fault?_eq_none_iff.2 ⟨?_, h.meaningful, by rwa [List.length_append]⟩
    exact List.forall_mem_append.2 ⟨h.taken, hw⟩
  unfold fetch requireSession
  simp only [h.connected, if_true, h.straight, Bool.false_eq_true, if_false, hfault, h.matching,
    ok_bind]
  split
  · next hmapped =>
    obtain ⟨store, hstore⟩ := h.exists_objects hmapped
      fun row (hrow : row ∈ w.cut (TableRow.sortBy q.sorting rows)) =>
        (TableRow.sortBy_perm ..).mem_iff.1 (mem_cut hrow)
    rw [hstore]
    exact ⟨store, rfl⟩
  · exact ⟨[], rfl⟩

/-! ## Further criteria -/

theorem criterion_filtered (q : Query) (c : Criterion) : ∃ before after,
    q.criterion = .all (before ++ after) ∧ (q.filtered c).criterion = .all (before ++ c :: after) :=
  ⟨q.criteria, (q.entity.trashedCriterion q.trashed).toList, rfl, by
    simp [criterion, filtered]⟩

/-- **A further criterion leaves out the rows that do not meet it**, if it can be looked for in every
row. -/
theorem Lists.filtered_of_quiet {c : Criterion} (h : q.Lists rows)
    (hquiet : ∀ row ∈ q.db.content.rowsOf q.entity.table, c.overruns q.db.content row = false)
    (htaken : ∀ p ∈ c.parameters, p.IsTaken) :
    (q.filtered c).Lists (rows.filter (c.holds q.db.content)) ∧
      (q.filtered c).criterion.parameters.length =
        q.criterion.parameters.length + c.parameters.length := by
  obtain ⟨before, after, hq, hnew⟩ := criterion_filtered q c
  have hparameters : (q.filtered c).criterion.parameters =
      Criterion.parametersOf before ++ (c.parameters ++ Criterion.parametersOf after) := by
    rw [hnew, Criterion.parameters, Criterion.parametersOf_append, Criterion.parametersOf]
  have hbefore : q.criterion.parameters =
      Criterion.parametersOf before ++ Criterion.parametersOf after := by
    rw [hq, Criterion.parameters, Criterion.parametersOf_append]
  have hothers := h.taken
  have hmatching := h.matching
  rw [hbefore, List.forall_mem_append] at hothers
  unfold Query.matching at hmatching
  rw [hq] at hmatching
  refine ⟨⟨h.connected, h.straight, h.meaningful, ?_, ?_, ?_, h.sound⟩, ?_⟩
  · unfold Query.matching
    rw [hnew]
    exact Criterion.select_insert hquiet hmatching
  · rw [hparameters, List.forall_mem_append, List.forall_mem_append]
    exact ⟨hothers.1, htaken, hothers.2⟩
  · exact fun hmapped row hrow => h.computed hmapped row (List.mem_filter.1 hrow).1
  · rw [hparameters, hbefore]
    simp only [List.length_append]
    omega

/-- **A criterion that finds rows leaves the others out.** -/
theorem Lists.filtered {cs : List Criterion} {p : TableRow → Bool} {n : Nat} (h : q.Lists rows)
    (hfinds : Criterion.Finds q.db.content cs p n) :
    (q.filtered (.any cs)).Lists (rows.filter p) ∧
      (q.filtered (.any cs)).criterion.parameters.length =
        q.criterion.parameters.length + n := by
  have hfound := h.filtered_of_quiet (c := .any cs) (fun row _ => hfinds.quiet row) hfinds.taken
  rwa [show (Criterion.any cs).holds q.db.content = p from funext hfinds.holds,
    show (Criterion.any cs).parameters.length = n from hfinds.count] at hfound

theorem Lists.resorted (h : q.Lists rows) (sorting : List (Column × Bool)) :
    { q with sorting := sorting }.Lists rows :=
  ⟨h.connected, h.straight, h.meaningful, h.matching, h.taken, h.computed, h.sound⟩

/-! ## Answers -/

/-- What an answer tells of a row: the row as a value, or the key of an object. -/
def identity (q : Query) (row : TableRow) : Value :=
  if q.entity.mapped then .text (q.entity.keyOf row)
  else .map (Entries.ofPairs (q.taken.map fun c => (.text c.name, row.get c.name)))

theorem identities_answer (q : Query) (f : Fetched) (rows : List TableRow) :
    (q.answer f rows).identities = rows.map q.identity := by
  unfold answer
  split
  · next hmapped =>
    simp only [Bool.not_eq_true'] at hmapped
    simp [Rows.identities, identity, hmapped]
  · next hmapped =>
    simp only [Bool.not_eq_true', Bool.not_eq_false] at hmapped
    split
    · next hempty => simp [Rows.identities, List.isEmpty_iff.1 hempty]
    · simp [Rows.identities, Store.graph, identity, hmapped]

theorem computed_of_objects {some : List TableRow} {store : Store}
    (h : q.objects some = .ok store) :
    ∀ row ∈ some, ∀ a ∈ q.aggregates, ∃ v, a.value q.db.content q.entity row = .ok v := by
  have hfold : ∀ {store store' : Store}, some.foldlM (fun (s : Store) row =>
      q.aggregates.foldlM (fun (s : Store) a => do
        let v ← a.value q.db.content q.entity row
        return s.set (q.entity.keyOf row) a.label (.value v)) s) store = Except.ok store' →
      ∀ row ∈ some, ∀ a ∈ q.aggregates, ∃ v, a.value q.db.content q.entity row = .ok v := by
    intro store store' hfold
    refine forall_of_foldlM (fun s s' row hs => forall_of_foldlM (fun s s' a hs => ?_) hs) hfold
    obtain ⟨v, hv, -⟩ := bind_eq_ok_iff.1 hs
    exact ⟨v, hv⟩
  unfold objects at h
  dsimp only at h
  split at h
  · exact hfold h
  · obtain ⟨loaded, -, h⟩ := bind_eq_ok_iff.1 h
    exact hfold h

/-- **What a query with an answer lists.** -/
theorem exists_lists {answer : Rows} (h : q.get = .ok answer)
    (hsound : ∀ l ∈ q.loadings.flatten, l.IsSound q.db.content) :
    ∃ rows, q.Lists rows ∧
      answer.identities = (TableRow.sortBy q.sorting rows).map q.identity ∧
      q.criterion.parameters.length ≤ Parameter.countLimit := by
  obtain ⟨f, hf, h⟩ := bind_eq_ok_iff.1 h
  obtain rfl := Except.ok.inj h
  unfold fetch requireSession at hf
  cases hconnected : q.connected with
  | false => simp [hconnected] at hf
  | true =>
  cases hstraight : q.misled with
  | true => simp [hconnected, hstraight] at hf
  | false =>
  cases hfault : q.criterion.fault? ({} : Window).parameters
      (q.aggregates.any Aggregate.meaningless) with
  | some fault => simp [hconnected, hstraight, hfault] at hf
  | none =>
  simp only [hconnected, hstraight, hfault, if_true, Bool.false_eq_true, if_false, ok_bind] at hf
  obtain ⟨htaken, hmeaningful, hcount⟩ := Criterion.fault?_eq_none_iff.1 hfault
  rw [show ({} : Window).parameters = [] from rfl, List.append_nil] at htaken hcount
  obtain ⟨rows, hrows, hf⟩ := bind_eq_ok_iff.1 hf
  have hcut : ({} : Window).cut (TableRow.sortBy q.sorting rows) = TableRow.sortBy q.sorting rows :=
    rfl
  rw [hcut] at hf
  have hcomputed : q.entity.mapped = true → ∀ row ∈ rows, ∀ a ∈ q.aggregates,
      ∃ v, a.value q.db.content q.entity row = .ok v := by
    intro hmapped row hrow
    rw [if_pos hmapped] at hf
    obtain ⟨store, hstore, -⟩ := bind_eq_ok_iff.1 hf
    exact computed_of_objects hstore row ((TableRow.sortBy_perm ..).mem_iff.2 hrow)
  have hf : f.rows = TableRow.sortBy q.sorting rows := by
    split at hf
    · obtain ⟨store, -, hf⟩ := bind_eq_ok_iff.1 hf
      rw [← Except.ok.inj hf]
    · rw [← Except.ok.inj hf]
  refine ⟨rows, ⟨hconnected, hstraight, hmeaningful, hrows, htaken, hcomputed, hsound⟩, ?_, hcount⟩
  rw [identities_answer, hf]

end Query

end Listing
