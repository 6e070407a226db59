import Listing.Proofs.Source.Purged
import Listing.Proofs.Text.Split

/-!
# Chains of related rows

A path of relations leads from one entity to another (`Database.Route`), and along it chains of related
rows lead from one row to others. Rows that are marked as deleted do not take part: `Database.Chain`.

A query that asks for a row at the end of such a path asks one relation after the other, each on a fresh
query of its own, in which marked rows do not count. The criterion that this comes to is met by the rows
from which a chain leads to a row that the refinement keeps (`Query.relatedCriterion_route`), so that the
query keeps these rows (`Query.follows_filtered`).
-/

namespace Listing

namespace Database

/-- Does a mapped entity find a relation under its name, which leads to the table of another entity? -/
structure Relates (db : Database) (e : Entity) (r : Relation) (t : Entity) : Prop where
  mapped : e.mapped = true
  found : e.relation? r.name = some r
  target : db.entity? r.target = some t
  table : r.table = t.table

/-- Does a path of relations lead from one entity to another one? -/
inductive Route (db : Database) : Entity → List Relation → Entity → Prop
  | one {e t : Entity} {r : Relation} : db.Relates e r t → Route db e [r] t
  | cons {e u t : Entity} {r : Relation} {path : List Relation} : db.Relates e r u →
      Route db u path t → Route db e (r :: path) t

/-- Does a chain of related rows lead along a path from one row to another one? None of the rows that
it comes to is marked as deleted. -/
inductive Chain (db : Database) : List Relation → TableRow → TableRow → Prop
  | nil (row : TableRow) : Chain db [] row row
  | cons {t : Entity} {r : Relation} {path : List Relation} {row next last : TableRow} :
      db.entity? r.target = some t → next ∈ r.rows db.content row → t.marks next = false →
      Chain db path next last → Chain db (r :: path) row last

variable {db : Database} {e t : Entity} {r : Relation} {path : List Relation} {row last : TableRow}

theorem Route.ne_nil (h : db.Route e path t) : path ≠ [] := by
  cases h <;> simp

theorem chain_cons_iff (ht : db.entity? r.target = some t) : db.Chain (r :: path) row last ↔
    ∃ next ∈ r.rows db.content row, t.marks next = false ∧ db.Chain path next last := by
  constructor
  · intro h
    cases h with
    | cons ht' hnext hmarks hrest =>
      obtain rfl := Option.some.inj (ht.symm.trans ht')
      exact ⟨_, hnext, hmarks, hrest⟩
  · rintro ⟨next, hnext, hmarks, hrest⟩
    exact .cons ht hnext hmarks hrest

theorem chain_nil_iff : db.Chain [] row last ↔ row = last := by
  constructor
  · rintro ⟨⟩
    rfl
  · rintro rfl
    exact .nil _

end Database

/-! ## Criteria -/

namespace Criterion

variable {db : Database} {e u t : Entity} {r : Relation} {path : List Relation} {c k : Criterion}

/-- The rows that are not marked as deleted are those that are not left out. -/
theorem allHold_trashed (content : Content) (e : Entity) (row : TableRow) :
    allHold content row (e.trashedCriterion .excluded).toList = !e.marks row := by
  unfold Entity.trashedCriterion Entity.marks
  cases e.softDelete.bind e.column? with
  | none => rfl
  | some column =>
    show (holds content row (.isNull column false) && true) = !!(row.get column.name).isNull
    rw [Bool.and_true, Bool.not_not, holds]
    cases row.get column.name <;> rfl

theorem trashed_quiet (content : Content) (e : Entity) (row : TableRow) :
    allOverrun content row (e.trashedCriterion .excluded).toList = false := by
  unfold Entity.trashedCriterion
  cases e.softDelete.bind e.column? with
  | none => rfl
  | some column => exact Bool.and_false _

theorem parametersOf_trashed (e : Entity) (mode : Trashed) :
    parametersOf (e.trashedCriterion mode).toList = [] := by
  unfold Entity.trashedCriterion
  cases mode <;> cases e.softDelete.bind e.column? <;> rfl

/-- Does a criterion ask for a row of an entity, at the end of a chain along a path, that meets another
criterion? -/
structure Asks (db : Database) (path : List Relation) (t : Entity) (c k : Criterion) : Prop where
  holds : ∀ row, k.holds db.content row = true ↔
    ∃ last, db.Chain path row last ∧ c.holds db.content last = true
  quiet : (∀ row ∈ db.content.rowsOf t.table, c.overruns db.content row = false) →
    ∀ row, k.overruns db.content row = false
  parameters : k.parameters = c.parameters

/-- A relation asks for the related rows that meet a criterion. -/
theorem Asks.one (h : db.Relates e r t) (hout : c.LeavesOut t) : Asks db [r] t c (.related r c) where
  holds row := by
    rw [Criterion.holds, List.any_eq_true]
    constructor
    · rintro ⟨last, hlast, hc⟩
      have hmarks : t.marks last = false := by
        by_contra hmarks
        rw [hout db.content last (by simpa using hmarks)] at hc
        cases hc
      exact ⟨last, .cons h.target hlast hmarks (.nil last), hc⟩
    · rintro ⟨last, hchain, hc⟩
      obtain ⟨next, hnext, -, hrest⟩ := (Database.chain_cons_iff h.target).1 hchain
      obtain rfl := Database.chain_nil_iff.1 hrest
      exact ⟨next, hnext, hc⟩
  quiet hquiet row := by
    rw [overruns, List.any_eq_false]
    intro other hother
    have hmem : other ∈ db.content.rowsOf t.table := h.table ▸ (List.mem_filter.1 hother).1
    rw [hquiet other hmem]
    exact Bool.false_ne_true
  parameters := rfl

/-- A relation asks for a chain that goes on from a related row that is not marked as deleted. -/
theorem Asks.cons (h : db.Relates e r u) (hk : Asks db path t c k) : Asks db (r :: path) t c
    (.related r (.all (k :: (u.trashedCriterion .excluded).toList))) where
  holds row := by
    rw [Criterion.holds, List.any_eq_true]
    simp only [Criterion.holds, allHold, allHold_trashed, Bool.and_eq_true, Bool.not_eq_true', hk.holds,
      Database.chain_cons_iff h.target]
    constructor
    · rintro ⟨next, hnext, ⟨last, hchain, hc⟩, hmarks⟩
      exact ⟨last, ⟨next, hnext, hmarks, hchain⟩, hc⟩
    · rintro ⟨last, ⟨next, hnext, hmarks, hchain⟩, hc⟩
      exact ⟨next, hnext, ⟨last, hchain, hc⟩, hmarks⟩
  quiet hquiet row := by
    rw [overruns, List.any_eq_false]
    intro other _
    rw [overruns, allOverrun, hk.quiet hquiet, trashed_quiet, Bool.and_false, Bool.or_self]
    exact Bool.false_ne_true
  parameters := by
    show k.parameters ++ parametersOf _ = _
    rw [parametersOf_trashed, List.append_nil, hk.parameters]

end Criterion

/-! ## Queries -/

namespace Query

variable {db : Database} {e t : Entity} {path : List Relation} {q : Query}

/-- Does a query keep, of the rows of another one, those from which a chain leads to a row that a query on
the last entity keeps? It looks them up in the same order, any window of them, as long as there are not
too many parameters for a database. -/
def Follows (path : List Relation) (q inner q' : Query) : Prop :=
  ∀ rows kept : List TableRow, q.matching = .ok rows → inner.matching = .ok kept →
    ∃ answer : TableRow → Bool, (∀ row, answer row = true ↔ ∃ last ∈ kept, q.db.Chain path row last) ∧
      q'.matching = .ok (rows.filter answer) ∧
      ∀ w : Window, q.Lists rows → inner.Lists kept → (∀ p ∈ w.parameters, p.IsTaken) →
        q.criterion.parameters.length + inner.criterion.parameters.length + w.parameters.length ≤
          Parameter.countLimit →
        ∃ store, q'.fetch w = .ok ⟨w.cut (TableRow.sortBy q.sorting (rows.filter answer)), store⟩

end Query

end Listing
