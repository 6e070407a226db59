import Listing.Declaration
import Listing.Proofs.Outcome
import Listing.Proofs.Registry
import Listing.Proofs.Text.Split

/-!
# Includes by their paths

Includes may be declared in groups, and groups in groups. A declaration of names, of names for relations
and of groups under names has leaves (`Declaration.leaves?`), each of which has a path of groups around
it. Its public name and the relation that it stands for are dotted: the groups from the outermost to the
innermost, and then its own name, or its target (`Inclusion.Leaf`).

The public names are put together from the inside out, as the registry of a group is put into the one
around it, and the relations from the outside in, by what entries take over from the groups around them.
The two stay aligned (`Declaration.entry_under`), so that the registry of such a declaration is what its
leaves put there, in reading order (`Declaration.registry_leaves`). It has the public names of the leaves,
and under each of them what the last leaf with this name stands for (`Declaration.inclusions_leaves`).
-/

namespace Listing

/-! ## Leaves -/

/-- What stands at the end of a path through groups of includes: a name for a relation. -/
structure Inclusion.Leaf where
  /-- The names of the groups around it, the outermost first. -/
  groups : List String
  name : String
  target : String
  deriving DecidableEq

namespace Inclusion.Leaf

/-- The name by which requests ask for the include. -/
def publicName (l : Leaf) : String := joined "." (l.groups ++ [l.name])

/-- The path of relations that the include stands for. -/
def relation (l : Leaf) : String := joined "." (l.groups ++ [l.target])

/-- The leaf in one more group around all others. -/
def under (group : String) (l : Leaf) : Leaf := { l with groups := group :: l.groups }

/-- What the leaf puts into a registry inside of groups with a dotted name. -/
def entry (above : String) (l : Leaf) : String × Inclusion :=
  (l.publicName, .relation (.text (Declaration.qualified above l.relation)) .null)

end Inclusion.Leaf

namespace Declaration

open Inclusion (Leaf)

/-- The leaves of what stands under a name: a target, or a group with leaves of its own. A group has to
have a name that is not empty. -/
def leavesUnder? (name : String) (v : Value) (inner : Option (List Leaf)) : Option (List Leaf) :=
  match v with
  | .text target => some [⟨[], name, target⟩]
  | _ => if name = "" then none else inner.map (List.map (Leaf.under name))

mutual

/-- The leaves of a declaration of includes in reading order, if it is made of names, of names for
relations, and of groups that have names. A name alone is a name for the relation of that name. -/
def leaves? : Value → Option (List Leaf)
  | .map es => leavesOfEntries? es
  | .list vs | .tuple vs | .set vs => leavesOfItems? vs
  | _ => none

/-- The leaves of the entries of a map. -/
def leavesOfEntries? : List (Value × Value) → Option (List Leaf)
  | [] => some []
  | (.text name, v) :: es => do
    return (← leavesUnder? name v (leaves? v)) ++ (← leavesOfEntries? es)
  | _ => none

/-- The leaves of the items of a list. -/
def leavesOfItems? : List Value → Option (List Leaf)
  | [] => some []
  | .text name :: vs => do return ⟨[], name, name⟩ :: (← leavesOfItems? vs)
  | .map es :: vs => do return (← leavesOfEntries? es) ++ (← leavesOfItems? vs)
  | _ => none

end

/-! ## Dotted names -/

theorem dotted_injective (name : String) : Function.Injective fun rest => name ++ "." ++ rest := by
  intro a b h
  have hlist := congrArg String.toList h
  simp only [String.toList_append, List.append_right_inj] at hlist
  exact String.toList_inj.1 hlist

/-- A dotted name under a group is the rest of it under the group with its first part. -/
theorem qualified_dotted {name : String} (h : name ≠ "") (above rest : String) :
    qualified above (name ++ "." ++ rest) = qualified (qualified above name) rest := by
  have hname : name.toList.isEmpty = false := by simpa using h
  cases ha : above.toList.isEmpty with
  | true => simp [qualified, ha, hname]
  | false => simp [qualified, ha, String.append_assoc]

/-- **The two names stay aligned**: in one more group, the group stands in front of the public name and
is taken over by the relation. -/
theorem entry_under {name : String} (h : name ≠ "") (above : String) (l : Leaf) :
    (l.under name).entry above =
      (name ++ "." ++ (l.entry (qualified above name)).1, (l.entry (qualified above name)).2) := by
  have hname : (l.under name).publicName = name ++ "." ++ l.publicName :=
    Text.joined_cons _ _ (by simp)
  have hrelation : (l.under name).relation = name ++ "." ++ l.relation :=
    Text.joined_cons _ _ (by simp)
  rw [Leaf.entry, Leaf.entry, hname, hrelation, qualified_dotted h]

/-- In a group with an empty name they do not: the public name has a dot in front, the relation none. -/
example : leaves? (.map [(.text "", .list [.text "items"])]) = none ∧
    inclusions (.map [(.text "", .list [.text "items"])]) =
      .ok [(".items", .relation (.text "items") .null)] := ⟨rfl, rfl⟩

/-! ## Registries of leaves -/

variable {above name : String} {v : Value} {ls : List Leaf}

/-- A group puts the leaves of its own registry, each under its public name in the group. -/
theorem putGroup_leaves {name : String} (h : name ≠ "") (above : String) (r : Registry Inclusion)
    (v : Value) (inner : List Leaf) :
    inclusionKind.putGroup r name v
        (.ok (Registry.insertAll [] (inner.map (Leaf.entry (qualified above name))))) =
      .ok (r.insertAll ((inner.map (Leaf.under name)).map (Leaf.entry above))) := by
  have hrenamed : Registry.renamed (name ++ "." ++ ·)
      (inner.map (Leaf.entry (qualified above name))) =
        (inner.map (Leaf.under name)).map (Leaf.entry above) := by
    rw [Registry.renamed, List.map_map, List.map_map]
    exact List.map_congr_left fun l _ => (entry_under h above l).symm
  have hput (g : Registry Inclusion) : inclusionKind.putGroup r name v (.ok g) =
      .ok (r.insertAll (g.renamed (name ++ "." ++ ·))) :=
    congrArg Except.ok (Registry.insertAll_renamed r g _).symm
  -- names may recur inside of the group: its registry has the last leaf of each, in the place of the first
  rw [hput, Registry.renamed_insertAll (dotted_injective name), hrenamed]
  exact congrArg Except.ok (Registry.insertAll_insertAll (s := []) List.nodup_nil r _)

/-- An entry puts the leaves of what stands under its name. -/
theorem add_leaves (r : Registry Inclusion)
    (hv : ∀ {inner}, leaves? v = some inner → inclusionKind.registry (qualified above name) v =
      .ok (Registry.insertAll [] (inner.map (Leaf.entry (qualified above name)))))
    (h : leavesUnder? name v (leaves? v) = some ls) :
    inclusionKind.add above r (.text name) v (inclusionKind.registry (qualified above name) v) =
      .ok (r.insertAll (ls.map (Leaf.entry above))) := by
  have hgroup (hne : name ≠ "") (hls : (leaves? v).map (List.map (Leaf.under name)) = some ls) :
      inclusionKind.putGroup r name v (inclusionKind.registry (qualified above name) v) =
        .ok (r.insertAll (ls.map (Leaf.entry above))) := by
    obtain ⟨inner, hinner, rfl⟩ := Option.map_eq_some_iff.1 hls
    rw [hv hinner]
    exact putGroup_leaves hne above r v inner
  cases v with
  | text target =>
    obtain rfl := Option.some.inj h
    rfl
  | map es | list vs | tuple vs | set vs =>
    obtain ⟨hne, hls⟩ := (Option.ite_none_left_eq_some ..).1 h
    exact hgroup hne hls
  | _ =>
    obtain ⟨-, hls⟩ := (Option.ite_none_left_eq_some ..).1 h
    cases hls

mutual

/-- **The registry of a declaration is what its leaves put there**, at any depth of groups. -/
theorem registry_leaves (above : String) : (v : Value) → {ls : List Leaf} → leaves? v = some ls →
    inclusionKind.registry above v = .ok (Registry.insertAll [] (ls.map (Leaf.entry above)))
  | .map es, _, h => addEntries_leaves above [] es h
  | .list vs, _, h => addItems_leaves above [] 0 vs h
  | .tuple vs, _, h => addItems_leaves above [] 0 vs h
  | .set vs, _, h => addItems_leaves above [] 0 vs h
  | .null, _, h | .bool _, _, h | .int _, _, h | .binary _, _, h | .decimal _, _, h
  | .text _, _, h | .bytes _, _, h | .moment _, _, h | .date _, _, h | .record _, _, h
  | .choice _, _, h | .request _ _, _, h | .cursor _ _, _, h | .finished _ _, _, h
  | .function _ _, _, h | .object _, _, h => by cases h
termination_by v => sizeOf v

theorem addEntries_leaves (above : String) (r : Registry Inclusion) :
    (es : List (Value × Value)) → {ls : List Leaf} → leavesOfEntries? es = some ls →
      inclusionKind.addEntries above r es = .ok (r.insertAll (ls.map (Leaf.entry above)))
  | [], _, h => by
    obtain rfl := Option.some.inj h
    rfl
  | (key, v) :: es, ls, h => by
    cases key with
    | text name =>
      obtain ⟨own, hown, h⟩ := Option.bind_eq_some_iff.1 h
      obtain ⟨rest, hrest, h⟩ := Option.bind_eq_some_iff.1 h
      obtain rfl := Option.some.inj h
      have hadd := add_leaves r (fun hinner => registry_leaves (qualified above name) v hinner) hown
      rw [DeclarationKind.addEntries, List.map_append, Registry.insertAll_append]
      exact (congrArg (· >>= _) hadd).trans (addEntries_leaves above _ es hrest)
    | _ => cases h
termination_by es => sizeOf es

theorem addItems_leaves (above : String) (r : Registry Inclusion) (i : Nat) :
    (vs : List Value) → {ls : List Leaf} → leavesOfItems? vs = some ls →
      inclusionKind.addItems above r i vs = .ok (r.insertAll (ls.map (Leaf.entry above)))
  | [], _, h => by
    obtain rfl := Option.some.inj h
    rfl
  | v :: vs, ls, h => by
    cases v with
    | text name =>
      obtain ⟨rest, hrest, h⟩ := Option.bind_eq_some_iff.1 h
      obtain rfl := Option.some.inj h
      exact addItems_leaves above _ (i + 1) vs hrest
    | map es =>
      obtain ⟨own, hown, h⟩ := Option.bind_eq_some_iff.1 h
      obtain ⟨rest, hrest, h⟩ := Option.bind_eq_some_iff.1 h
      obtain rfl := Option.some.inj h
      rw [DeclarationKind.addItems, addEntries_leaves above r es hown, ok_bind, List.map_append,
        Registry.insertAll_append]
      exact addItems_leaves above _ i vs hrest
    | _ => cases h
termination_by vs => sizeOf vs

end

end Declaration

end Listing
