import Listing.Proofs.Request.Filtering
import Listing.Proofs.Source.Columns
import Listing.Proofs.Source.Narrowing
import Listing.Proofs.Source.Sorting

/-!
# Filters of a collection are a conjunction

A filter adds conditions to a collection, and which ones they are depends on the rows and on the
operators only, not on what has been asked of the collection before (`Collection.run_joined`). So the
conditions of a list of filters are those that each of them adds alone, one after the other
(`Collection.foldlM_apply`). If none of them fails for a row, a row passes all exactly if it passes each
(`Predicate.allHold_flatten`), and their order does not matter (`Predicate.allHold_perm`).
-/

namespace Listing

/-! ## Lists of conditions -/

namespace Predicate

variable {row : Value} {pss pss' : List (List Predicate)}

theorem allHold_append (row : Value) (ps qs : List Predicate) : allHold row (ps ++ qs) =
    allHold row ps >>= fun kept => if kept then allHold row qs else .ok false := by
  induction ps with
  | nil => rfl
  | cons p ps ih =>
    rw [List.cons_append, allHold, allHold, bind_assoc]
    refine bind_congr fun kept => ?_
    cases kept with
    | false => rfl
    | true => exact ih

/-- Is it decided for a row whether the conditions hold? -/
def Decided (row : Value) (ps : List Predicate) : Prop := ∃ kept, allHold row ps = .ok kept

/-- Do the conditions hold for a row? Where one of them fails they do not. -/
def keeps (row : Value) (ps : List Predicate) : Bool := (allHold row ps).toOption.getD false

theorem Decided.allHold_eq {ps : List Predicate} (h : Decided row ps) :
    allHold row ps = .ok (keeps row ps) := by
  obtain ⟨kept, hkept⟩ := h
  rw [keeps, hkept]
  rfl

/-- **Lists of conditions hold together exactly if each of them holds.** -/
theorem allHold_flatten (h : ∀ ps ∈ pss, Decided row ps) :
    allHold row pss.flatten = .ok (pss.all (keeps row)) := by
  induction pss with
  | nil => rfl
  | cons ps pss ih =>
    rw [List.flatten_cons, allHold_append, (h ps (List.mem_cons_self ..)).allHold_eq, ok_bind,
      List.all_cons]
    cases keeps row ps with
    | false => rfl
    | true => exact ih fun qs hqs => h qs (List.mem_cons_of_mem _ hqs)

/-- **The order of lists of conditions does not matter.** -/
theorem allHold_perm (hperm : pss'.Perm pss) (h : ∀ ps ∈ pss, Decided row ps) :
    allHold row pss'.flatten = allHold row pss.flatten := by
  rw [allHold_flatten h, allHold_flatten fun ps hps => h ps (hperm.mem_iff.1 hps), hperm.all_eq]

end Predicate

/-! ## What calls notice -/

namespace Capability

/-- Does the capability neither select nor order? -/
def Narrows (c : Capability) : Prop := c ≠ .select ∧ c ≠ .order

/-- Does the capability add no condition to a collection? -/
def Spares (c : Capability) : Prop := c ≠ .compare ∧ c ≠ .member ∧ c ≠ .like ∧ c ≠ .any

end Capability

namespace Collection

variable {c d : Collection} {ps : List Predicate} {capability : Capability}
  {given : List (Given Collection)}

/-- The collection with more conditions. -/
def joined (c : Collection) (ps : List Predicate) : Collection :=
  { c with predicates := c.predicates ++ ps }

/-- The collection with other conditions. -/
def withPredicates (ps : List Predicate) (c : Collection) : Collection := { c with predicates := ps }

/-- What is asked of a collection, asked after what has been asked of another one. -/
def onto (base c : Collection) : Collection :=
  { c with
    predicates := base.predicates ++ c.predicates
    columns := base.columns
    orders := base.orders }

theorem onto_filtered (base c : Collection) (p : Predicate) :
    base.onto (c.filtered p) = (base.onto c).filtered p := by
  simp [onto, filtered]

theorem compare_onto (base c : Collection) (name operator value : Value) :
    (base.onto c).compare name operator value = (c.compare name operator value).map base.onto := by
  unfold compare
  rw [bind_map]
  refine bind_congr fun found => ?_
  cases found with
  | none => rfl
  | some comparison => exact congrArg Except.ok (onto_filtered ..).symm

theorem like_onto (base c : Collection) (name pattern operator : Value) :
    (base.onto c).like name pattern operator = (c.like name pattern operator).map base.onto := by
  unfold like
  simp only [bind_map]
  exact bind_congr fun op => bind_congr fun parts => congrArg Except.ok (onto_filtered ..).symm

theorem any_onto (base c : Collection) (branches : List (Given Collection)) :
    (base.onto c).any branches = (c.any branches).map base.onto := by
  unfold any
  rw [bind_map]
  refine bind_congr fun groups => ?_
  split
  · rfl
  · exact congrArg Except.ok (onto_filtered ..).symm

/-- **What narrows a collection does not notice what has been asked before.** -/
theorem ask_onto (base c : Collection) (h : capability.Narrows) (given : List (Given Collection)) :
    (base.onto c).ask capability given = (c.ask capability given).map base.onto := by
  unfold ask
  split
  · exact absurd rfl h.1
  · exact compare_onto ..
  · simp only [bind_map]
    exact bind_congr fun vs => congrArg Except.ok (onto_filtered ..).symm
  · exact like_onto ..
  · exact like_onto ..
  · simp only [bind_map, any_onto]
  · exact absurd rfl h.2
  · exact absurd rfl h.2
  all_goals rfl

/-- **What adds no condition does not notice conditions.** -/
theorem ask_withPredicates (h : capability.Spares) (given : List (Given Collection)) :
    (c.withPredicates ps).ask capability given =
      (c.ask capability given).map (withPredicates ps) := by
  unfold ask
  split
  · unfold select
    rw [bind_map]
    refine bind_congr fun known => ?_
    cases known <;> rfl
  · exact absurd rfl h.1
  · exact absurd rfl h.2.1
  · exact absurd rfl h.2.2.1
  · exact absurd rfl h.2.2.1
  · exact absurd rfl h.2.2.2
  · unfold order
    simp only [bind_map]
    rfl
  · unfold order
    simp only [bind_map]
    rfl
  all_goals rfl

/-- **No call changes the rows or the operators.** -/
theorem ask_frame (h : c.ask capability given = .ok d) :
    d = { c with predicates := d.predicates, columns := d.columns, orders := d.orders } := by
  unfold ask at h
  split at h
  · obtain ⟨known, -, h⟩ := bind_eq_ok_iff.1 h
    obtain rfl := Except.ok.inj h
    cases known <;> rfl
  · obtain ⟨found, -, h⟩ := bind_eq_ok_iff.1 h
    cases found with
    | none => cases h
    | some comparison =>
      obtain rfl := Except.ok.inj h
      rfl
  · obtain ⟨vs, -, h⟩ := bind_eq_ok_iff.1 h
    obtain rfl := Except.ok.inj h
    rfl
  · obtain ⟨op, -, h⟩ := bind_eq_ok_iff.1 h
    obtain ⟨parts, -, h⟩ := bind_eq_ok_iff.1 h
    obtain rfl := Except.ok.inj h
    rfl
  · obtain ⟨op, -, h⟩ := bind_eq_ok_iff.1 h
    obtain ⟨parts, -, h⟩ := bind_eq_ok_iff.1 h
    obtain rfl := Except.ok.inj h
    rfl
  · obtain ⟨branches, -, h⟩ := bind_eq_ok_iff.1 h
    obtain ⟨groups, -, h⟩ := bind_eq_ok_iff.1 h
    obtain rfl := Except.ok.inj h
    split <;> rfl
  · obtain ⟨direction, -, h⟩ := bind_eq_ok_iff.1 h
    obtain rfl := Except.ok.inj h
    rfl
  · obtain ⟨direction, -, h⟩ := bind_eq_ok_iff.1 h
    obtain rfl := Except.ok.inj h
    rfl
  all_goals cases h

theorem run_same {t : Script} (h : t.run capabilities c = .ok d) :
    d.rows = c.rows ∧ d.operators = c.operators :=
  Script.run_preserves (k := capabilities) (P := fun d => d.rows = c.rows ∧ d.operators = c.operators)
    (fun _ _ _ _ hask hd => ⟨(congrArg rows (ask_frame hask)).trans hd.1,
      (congrArg operators (ask_frame hask)).trans hd.2⟩) h ⟨rfl, rfl⟩

theorem run_withPredicates {t : Script} (ht : t.Asks Capability.Spares) (ps : List Predicate)
    (c : Collection) :
    t.run capabilities (c.withPredicates ps) = (t.run capabilities c).map (withPredicates ps) :=
  Script.run_map (k := capabilities) (fun d _ given hc => ask_withPredicates (c := d) hc given) ht c

/-- Conditions stay where none is added. -/
theorem run_predicates {t : Script} (ht : t.Asks Capability.Spares)
    (h : t.run capabilities c = .ok d) : d.predicates = c.predicates := by
  have hsame := run_withPredicates ht c.predicates c
  rw [show c.withPredicates c.predicates = c from rfl, h] at hsame
  rw [Except.ok.inj hsame]
  rfl

/-- Columns stay where none is selected. -/
theorem run_columns {t : Script} (ht : t.Asks (· ≠ .select)) (h : t.run capabilities c = .ok d) :
    d.columns = c.columns := by
  have hsame := Script.run_map (k := capabilities) (f := withColumns c.columns)
    (fun d _ given hc => ask_withColumns (c := d) hc given) ht c
  rw [show c.withColumns c.columns = c from rfl, h] at hsame
  rw [Except.ok.inj hsame]
  rfl

/-- **What narrows a collection adds the conditions to it that it adds to a fresh one.** -/
theorem run_joined {t : Script} (ht : t.Asks Capability.Narrows) (c : Collection) :
    t.run capabilities c = (t.run capabilities c.blank).map fun d => c.joined d.predicates := by
  have hfresh : c.onto c.blank = c := by
    rw [onto, blank, List.append_nil]
  conv_lhs => rw [← hfresh]
  rw [Script.run_map (k := capabilities) (f := c.onto) (fun d _ given hc => ask_onto c d hc given) ht]
  cases hd : t.run capabilities c.blank with
  | error e => rfl
  | ok d =>
    obtain ⟨hrows, hoperators⟩ : d.rows = c.rows ∧ d.operators = c.operators :=
      run_same (c := c.blank) hd
    show Except.ok (c.onto d) = .ok (c.joined d.predicates)
    rw [onto, joined, hrows, hoperators]

end Collection

/-! ## Filters one after the other -/

namespace FilterStep

/-- The conditions that a filter adds to a collection, if it is applied alone. -/
def conditions (c : Collection) (s : FilterStep) : Except Error (List Predicate) :=
  (FilterPipeline.apply Collection.capabilities false c.blank s).map (·.predicates)

/-- Does a row pass a filter that is applied alone? -/
def keeps? (c : Collection) (row : Value) (s : FilterStep) : Except Error Bool := do
  (← FilterPipeline.apply Collection.capabilities false c.blank s).passes row

/-- Does a row pass a filter that is applied alone? Where the filter fails it does not. -/
def keeps (c : Collection) (row : Value) (s : FilterStep) : Bool :=
  (s.keeps? c row).toOption.getD false

/-- Does a filter that is applied alone fail for no row? -/
def Decides (c : Collection) (s : FilterStep) : Prop :=
  ∀ row ∈ c.rows, ∃ kept, s.keeps? c row = .ok kept

variable {c : Collection} {row : Value} {s : FilterStep} {ps : List Predicate}

theorem keeps?_eq (h : s.conditions c = .ok ps) : s.keeps? c row = Predicate.allHold row ps := by
  obtain ⟨d, hd, rfl⟩ := map_eq_ok_iff.1 h
  rw [keeps?, hd]
  rfl

theorem keeps_eq (h : s.conditions c = .ok ps) : s.keeps c row = Predicate.keeps row ps := by
  rw [keeps, keeps?_eq h, Predicate.keeps]

end FilterStep

namespace Collection

variable {c d : Collection} {steps steps' : List FilterStep} {row : Value}

/-- Do filters neither select nor order? -/
def Narrowing (steps : List FilterStep) : Prop :=
  ∀ s ∈ steps, (FilterPipeline.stepScript false s).Asks Capability.Narrows

theorem joined_joined (c : Collection) (ps qs : List Predicate) :
    (c.joined ps).joined qs = c.joined (ps ++ qs) := by
  simp [joined]

/-- **Filters add the conditions that each of them adds alone.** -/
theorem foldlM_apply (h : Narrowing steps) (c : Collection) :
    steps.foldlM (FilterPipeline.apply capabilities false) c =
      (steps.mapM (FilterStep.conditions c)).map fun pss => c.joined pss.flatten := by
  induction steps generalizing c with
  | nil =>
    show Except.ok c = .ok (c.joined [])
    rw [joined, List.append_nil]
  | cons s steps ih =>
    have hstep : FilterPipeline.apply capabilities false c s =
        (s.conditions c).map c.joined := by
      rw [FilterPipeline.apply, run_joined (h s (List.mem_cons_self ..)), FilterStep.conditions,
        FilterPipeline.apply]
      cases (FilterPipeline.stepScript false s).run capabilities c.blank <;> rfl
    rw [List.foldlM_cons, hstep, List.mapM_cons]
    cases s.conditions c with
    | error e => rfl
    | ok ps =>
      show steps.foldlM (FilterPipeline.apply capabilities false) (c.joined ps) = _
      rw [ih fun s hs => h s (List.mem_cons_of_mem _ hs)]
      have hconditions : FilterStep.conditions (c.joined ps) = FilterStep.conditions c := rfl
      rw [hconditions]
      cases steps.mapM (FilterStep.conditions c) with
      | error e => rfl
      | ok pss => exact congrArg Except.ok (joined_joined ..)

/-- The conditions of filters that fail for no row are decided. -/
theorem decided_conditions {pss : List (List Predicate)}
    (hpss : steps.mapM (FilterStep.conditions c) = .ok pss) (h : ∀ s ∈ steps, s.Decides c)
    (hrow : row ∈ c.rows) : ∀ ps ∈ pss, Predicate.Decided row ps := by
  intro ps hps
  obtain ⟨s, hs, hconditions⟩ := exists_of_mem_mapM hpss hps
  obtain ⟨kept, hkept⟩ := h s hs row hrow
  exact ⟨kept, (FilterStep.keeps?_eq hconditions).symm.trans hkept⟩

theorem all_keeps {pss : List (List Predicate)}
    (hpss : steps.mapM (FilterStep.conditions c) = .ok pss) (row : Value) :
    pss.all (Predicate.keeps row) = steps.all (FilterStep.keeps c row) := by
  induction mapM_eq_ok_iff.1 hpss with
  | nil => rfl
  | @cons s ps steps pss hs hrest ih =>
    rw [List.all_cons, List.all_cons, ih (mapM_eq_ok_iff.2 hrest), FilterStep.keeps_eq hs]

/-- **The rows that pass filters are those that pass each of them alone.** -/
theorem passing_eq {pss : List (List Predicate)}
    (hpss : steps.mapM (FilterStep.conditions c) = .ok pss) (h : ∀ s ∈ steps, s.Decides c)
    (hd : d.rows = c.rows) (hpredicates : d.predicates = pss.flatten) :
    d.passing = .ok (c.rows.filter fun row => steps.all (FilterStep.keeps c row)) := by
  have hrow : ∀ row ∈ c.rows, d.passes (id row) = .ok (steps.all (FilterStep.keeps c row)) := by
    intro row hrow
    rw [passes, hpredicates, id, Predicate.allHold_flatten (decided_conditions hpss h hrow),
      all_keeps hpss]
  have hfiltered := filterM_map_eq_ok hrow
  rw [List.map_id, List.map_id] at hfiltered
  rw [passing, hd, hfiltered]

/-! ## One more condition -/

/-- **One more condition is asked of the rows that pass the others.** -/
theorem passing_filtered {rows : List Value} (hrows : c.passing = .ok rows) (p : Predicate) :
    (c.filtered p).passing = rows.filterM p.holds := by
  obtain ⟨kept, hkept, rfl⟩ := exists_of_filterM hrows
  rw [filterM_filter]
  refine filterM_congr fun row hrow => ?_
  rw [passes, filtered, Predicate.allHold_append,
    show Predicate.allHold row c.predicates = .ok (kept row) from hkept row hrow, ok_bind]
  cases kept row with
  | false => rfl
  | true =>
    rw [if_pos rfl, if_pos rfl, Predicate.allHold]
    cases p.holds row with
    | error e => rfl
    | ok answer => cases answer <;> rfl

/-- **A further condition keeps the rows for which it holds.** -/
theorem passing_filtered_iff {p : Predicate} {rows : List Value} {answer : Value → Bool}
    (hrows : c.passing = .ok rows) : (c.filtered p).passing = .ok (rows.filter answer) ↔
      ∀ row ∈ rows, p.holds row = .ok (answer row) := by
  rw [passing_filtered hrows, filterM_eq_filter_iff]

/-! ## Collections that pass the same rows -/

/-- Do two collections differ in conditions only, which the same rows pass? -/
structure PassAlike (c d : Collection) : Prop where
  rest : ∃ ps, d = c.withPredicates ps
  passing : d.passing = c.passing

namespace PassAlike

variable (h : PassAlike c d)

include h

theorem listing_eq : d.listing = c.listing := by
  obtain ⟨⟨ps, rfl⟩, hpassing⟩ := h
  rw [listing, hpassing]
  rfl

theorem window_eq (rows : List Value) (start stop : Int) :
    d.window rows start stop = c.window rows start stop := by
  obtain ⟨⟨ps, rfl⟩, -⟩ := h
  rfl

theorem get_eq : d.get = c.get := by
  rw [Collection.get, h.listing_eq]
  obtain ⟨⟨ps, rfl⟩, -⟩ := h
  rfl

theorem paginate_eq (n page : Int) (name : Value) : d.paginate n page name = c.paginate n page name := by
  simp only [Collection.paginate, h.listing_eq, h.window_eq]

theorem simplePaginate_eq (n page : Int) (name : Value) :
    d.simplePaginate n page name = c.simplePaginate n page name := by
  simp only [Collection.simplePaginate, h.listing_eq, h.window_eq]

theorem select (column : Value) : Alike PassAlike (c.select column) (d.select column) := by
  obtain ⟨⟨ps, rfl⟩, hpassing⟩ := h
  unfold Collection.select
  refine .bind_same fun known _ => ?_
  cases known with
  | true => exact .ok ⟨⟨ps, rfl⟩, hpassing⟩
  | false => exact .ok ⟨⟨ps, rfl⟩, hpassing⟩

theorem selectAll (columns : Value) : Alike PassAlike (c.selectAll columns) (d.selectAll columns) := by
  unfold Collection.selectAll
  exact .bind_same fun vs _ => .foldlM (fun _ _ column _ hab => hab.select column) h

end PassAlike

end Collection

/-- **Pages of collections that pass the same rows** are the same. -/
theorem Source.paginate_passAlike {c d : Collection} (h : c.PassAlike d)
    (perPage columns name page : Value) :
    Source.paginate (.collection d) perPage columns name page =
        Source.paginate (.collection c) perPage columns name page ∧
      Source.simplePaginate (.collection d) perPage columns name page =
        Source.simplePaginate (.collection c) perPage columns name page :=
  ⟨bind_congr fun _ => bind_congr fun _ =>
      (h.selectAll columns).bind_eq fun _ _ _ hab => hab.paginate_eq ..,
    bind_congr fun _ => bind_congr fun _ =>
      (h.selectAll columns).bind_eq fun _ _ _ hab => hab.simplePaginate_eq ..⟩

end Listing
