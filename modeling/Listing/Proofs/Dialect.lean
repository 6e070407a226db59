import Listing.Dialect
import Listing.Proofs.Registry

/-!
# Registered adapters

Adapters are registered one after the other. Under each name stands the one that was registered there
last (`Adapters.get?_registerAll`). The adapter of a dialect is not always that one, since a name that
begins the dialect's name comes first if it was registered first: `Adapters.findOr_registerAll` says
which name decides. For dialects that no registered name begins, nothing changes.
-/

namespace Listing

namespace Adapters

variable {α : Type}

/-- Register adapters, one after the other. -/
def registerAll (as : Adapters α) (calls : List (String × α)) : Adapters α :=
  calls.foldl (fun as c => as.register c.1 c.2) as

/-- The adapter that was registered last under a name, which is in small letters. -/
def latest? (calls : List (String × α)) (name : String) : Option α :=
  (calls.reverse.find? fun c => Text.lower c.1 = name).map Prod.snd

/-- The first name that begins the name of a dialect, of those that are there and those that are
registered. -/
def firstFit? (as : Adapters α) (calls : List (String × α)) (dialect : String) : Option String :=
  (Registry.names as ++ calls.map fun c => Text.lower c.1).find? (fits dialect)

theorem registerAll_eq (as : Adapters α) (calls : List (String × α)) :
    registerAll as calls = Registry.insertAll as (calls.map fun c => (Text.lower c.1, c.2)) := by
  rw [Registry.insertAll, List.foldl_map]
  rfl

theorem get?_registerAll (as : Adapters α) (calls : List (String × α)) (name : String) :
    Registry.get? (registerAll as calls) name = (latest? calls name).or (Registry.get? as name) := by
  rw [registerAll_eq, Registry.get?_insertAll_eq, ← List.map_reverse, List.find?_map, Option.map_map]
  rfl

theorem fits_self (dialect : String) : fits dialect (Text.lower dialect) = true :=
  List.isPrefixOf_iff_prefix.2 (List.prefix_refl _)

theorem fits_congr {m n : String} (h : Text.lower m = Text.lower n) : fits m = fits n := by
  funext start
  rw [fits, h]
  rfl

/-- The adapter of a dialect is what stands under the first name that begins the dialect's name. -/
theorem findOr_eq (base : α) (as : Adapters α) (dialect : String) :
    findOr base as dialect =
      (((Registry.names as).find? (fits dialect)).bind (Registry.get? as)).getD base := by
  rw [← Registry.map_snd_find?, findOr]
  cases as.find? fun e => fits dialect e.1 <;> rfl

theorem findOr_registerAll_eq (base : α) (as : Adapters α) (calls : List (String × α))
    (dialect : String) :
    findOr base (registerAll as calls) dialect =
      ((firstFit? as calls dialect).bind fun name =>
        (latest? calls name).or (Registry.get? as name)).getD base := by
  have hnames : (Registry.names (registerAll as calls)).find? (fits dialect) =
      firstFit? as calls dialect := by
    rw [registerAll_eq, Registry.find?_names_insertAll, firstFit?, Registry.names, Registry.names,
      List.map_map]
    rfl
  rw [findOr_eq, hnames]
  congr 2
  exact funext (get?_registerAll as calls)

/-- A name that is there or registered has an adapter. -/
theorem exists_of_mem_names {as : Adapters α} {calls : List (String × α)} {name : String}
    (h : name ∈ Registry.names as ++ calls.map fun c => Text.lower c.1) :
    ∃ a, (latest? calls name).or (Registry.get? as name) = some a := by
  rw [← Option.isSome_iff_exists, Option.isSome_or, Bool.or_eq_true]
  rcases List.mem_append.1 h with h | h
  · exact .inr (Registry.get?_isSome h)
  · obtain ⟨c, hc, rfl⟩ := List.mem_map.1 h
    refine .inl ?_
    rw [latest?, Option.isSome_map, List.find?_isSome]
    exact ⟨c, List.mem_reverse.2 hc, decide_eq_true rfl⟩

theorem mem_of_latest? {calls : List (String × α)} {name : String} {a : α}
    (h : latest? calls name = some a) : name ∈ calls.map fun c => Text.lower c.1 := by
  obtain ⟨c, hc, -⟩ := Option.map_eq_some_iff.1 h
  have hname := List.find?_some hc
  rw [decide_eq_true_eq] at hname
  exact List.mem_map.2 ⟨c, List.mem_reverse.1 (List.mem_of_find?_eq_some hc), hname⟩

/-- **The adapter of a registered dialect.** The name of a dialect that an adapter was registered for,
in any letter case, is decided by the first name that begins it, of those that were there and those
that were registered, in this order; the answer is the adapter registered there last, which is the one
registered last for the dialect itself unless another name came first. A dialect that no registered
name begins has the adapter that it had. -/
theorem findOr_registerAll (base : α) (as : Adapters α) (calls : List (String × α)) :
    (∀ n a, latest? calls (Text.lower n) = some a → ∀ m, Text.lower m = Text.lower n →
      ∃ name, firstFit? as calls n = some name ∧
        (latest? calls name).or (Registry.get? as name) =
          some (findOr base (registerAll as calls) m) ∧
        (name = Text.lower n → findOr base (registerAll as calls) m = a)) ∧
    ∀ m, (∀ c ∈ calls, fits m (Text.lower c.1) = false) →
      findOr base (registerAll as calls) m = findOr base as m := by
  refine ⟨fun n a hlatest m hm => ?registered, fun m hnone => ?others⟩
  case registered =>
    have hmem : Text.lower n ∈ Registry.names as ++ calls.map fun c => Text.lower c.1 :=
      List.mem_append_right _ (mem_of_latest? hlatest)
    obtain ⟨name, hname⟩ : ∃ name, firstFit? as calls n = some name := by
      rw [← Option.isSome_iff_exists, firstFit?, List.find?_isSome]
      exact ⟨_, hmem, fits_self n⟩
    obtain ⟨b, hb⟩ := exists_of_mem_names (List.mem_of_find?_eq_some hname)
    have hfind : findOr base (registerAll as calls) m = b := by
      rw [findOr_registerAll_eq, firstFit?, fits_congr hm, ← firstFit?, hname, Option.bind_some, hb]
      rfl
    refine ⟨name, hname, by rw [hfind, hb], ?_⟩
    rintro rfl
    rw [hlatest] at hb
    rw [hfind]
    exact (Option.some.inj hb).symm
  case others =>
    have hnew : (calls.map fun c => Text.lower c.1).find? (fits m) = none := by
      simpa [List.find?_eq_none] using hnone
    have hold : firstFit? as calls m = (Registry.names as).find? (fits m) := by
      rw [firstFit?, List.find?_append, hnew, Option.or_none]
    rw [findOr_registerAll_eq, hold, findOr_eq]
    congr 1
    refine Option.bind_congr fun name hname => ?_
    -- The name that decides is none of the registered ones.
    have hlatest : latest? calls name = none := by
      rw [Option.eq_none_iff_forall_ne_some]
      intro a ha
      obtain ⟨c, hc, rfl⟩ := List.mem_map.1 (mem_of_latest? ha)
      exact Bool.false_ne_true ((hnone c hc).symm.trans (List.find?_some hname))
    rw [hlatest, Option.none_or]

/-- The second adapter registered for a dialect takes the place of the first one. -/
theorem findOr_registerAll_mysql :
    findOr .base (registerAll builtin [("MySQL", .mssql), ("mysql", .postgres)]) "MYSQL" =
      .postgres := by
  obtain ⟨name, hname, -, hfind⟩ := (findOr_registerAll Adapter.base builtin
    [("MySQL", .mssql), ("mysql", .postgres)]).1 "mysql" .postgres (by decide +kernel) "MYSQL"
    (by decide +kernel)
  have hfirst : firstFit? builtin [("MySQL", Adapter.mssql), ("mysql", .postgres)] "mysql" =
      some "mysql" := by decide +kernel
  rw [hname] at hfirst
  exact hfind ((Option.some.inj hfirst).trans (by decide +kernel))

/-- An adapter that is never used, since the name of another one begins its name. -/
example : find (registerAll builtin [("sqlitex", .mssql)]) "sqlitex" = .sqlite := by decide +kernel

end Adapters

end Listing
