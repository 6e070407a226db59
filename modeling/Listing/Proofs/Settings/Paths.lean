import Listing.Proofs.Value.Data
import Listing.Settings

/-!
# Paths through settings

Settings are read along paths of keys. A path leads to nothing, to a map, or to a leaf, which is any
other value (`Settings.Held`, `Settings.held`). Where a layer is laid over settings, and nowhere has a
leaf where these have a map or a map where they have a leaf, every path leads to what it leads to in
the layer, or else to what it led to before: `Settings.held_mergedEntries`.
-/

namespace Listing

namespace Value

mutual

/-- Do the maps in a value have distinct texts and integers as keys, at every depth? Other values have
no depth. -/
def IsTree : Value → Prop
  | .map es => Entries.Distinct es ∧ EntriesAreTrees es
  | _ => True

/-- Are all keys texts or integers, and all values trees? -/
def EntriesAreTrees : List (Value × Value) → Prop
  | [] => True
  | (k, v) :: es => k.IsName ∧ IsTree v ∧ EntriesAreTrees es

end

theorem entriesAreTrees_iff {es : Entries} :
    EntriesAreTrees es ↔ ∀ e ∈ es, e.1.IsName ∧ IsTree e.2 := by
  induction es with
  | nil => simp [EntriesAreTrees]
  | cons e es ih =>
    obtain ⟨k, v⟩ := e
    simp [EntriesAreTrees, ih, and_assoc]

theorem isTree_nil : (Value.map []).IsTree := ⟨List.Pairwise.nil, trivial⟩

namespace IsTree

variable {es : Entries} {k v : Value}

theorem names (h : (Value.map es).IsTree) : ∀ e ∈ es, e.1.IsName :=
  fun e he => (entriesAreTrees_iff.1 h.2 e he).1

theorem get? (h : (Value.map es).IsTree) (hv : Entries.get? es k = some v) : v.IsTree := by
  obtain ⟨l, hl, -⟩ := Entries.mem_of_get?_eq_some hv
  exact (entriesAreTrees_iff.1 h.2 _ hl).2

theorem insert (h : (Value.map es).IsTree) (hk : k.IsName) (hv : v.IsTree) :
    (Value.map (es.insert k v)).IsTree := by
  refine ⟨Entries.Distinct.insert h.1 k v, entriesAreTrees_iff.2 fun e he => ?_⟩
  rcases Entries.mem_insert_of_isName h.names hk he with he | rfl
  · exact entriesAreTrees_iff.1 h.2 e he
  · exact ⟨hk, hv⟩

end IsTree

end Value

namespace Settings

/-! ## What a path leads to -/

/-- What a path of keys leads to. -/
inductive Held
  | nothing
  | mapping
  | leaf (v : Value)

namespace Held

/-- What is laid over something hides it, unless it is nothing. -/
def above : Held → Held → Held
  | .nothing, lower => lower
  | upper, _ => upper

/-- The two are not a map on one side and a leaf on the other. -/
def Agree : Held → Held → Prop
  | .mapping, .leaf _ | .leaf _, .mapping => False
  | _, _ => True

variable {a b c : Held}

@[simp] theorem above_nothing (h : Held) : h.above .nothing = h := by cases h <;> rfl

theorem above_assoc (a b c : Held) : (a.above b).above c = a.above (b.above c) := by cases a <;> rfl

theorem Agree.symm (h : Agree a b) : Agree b a := by
  cases a <;> cases b <;> trivial

theorem agree_self (a : Held) : a.Agree a := by cases a <;> trivial

theorem Agree.above (ha : Agree a c) (hb : Agree b c) : Agree (a.above b) c := by
  cases a <;> first | exact hb | exact ha

end Held

/-- The keys of settings. -/
abbrev Key := { k : Value // k.IsName }

/-- What a path of keys leads to in a value. -/
def held : Value → List Key → Held
  | .map _, [] => .mapping
  | v, [] => .leaf v
  | .map es, k :: path => (Entries.get? es k.1).elim .nothing fun v => held v path
  | _, _ :: _ => .nothing

section Held

variable {es fs : Entries} {v : Value} {k l : Key} {path : List Key}

@[simp] theorem held_map_nil (es : Entries) : held (.map es) [] = .mapping := rfl

theorem held_map_cons (es : Entries) (k : Key) (path : List Key) :
    held (.map es) (k :: path) = (es.get? k.1).elim .nothing fun v => held v path := rfl

theorem held_of_get? (h : es.get? k.1 = some v) : held (.map es) (k :: path) = held v path := by
  rw [held_map_cons, h, Option.elim_some]

theorem held_of_get?_none (h : es.get? k.1 = none) : held (.map es) (k :: path) = .nothing := by
  rw [held_map_cons, h, Option.elim_none]

/-- A value is a map or a leaf. -/
theorem map_or_leaf (v : Value) : (∃ es : Entries, v = .map es) ∨ ∀ es, v ≠ .map es := by
  by_cases h : ∃ es : Entries, v = .map es
  · exact .inl h
  · exact .inr fun es hes => h ⟨es, hes⟩

theorem held_leaf (h : ∀ es, v ≠ .map es) : held v [] = .leaf v := by
  cases v with
  | map es => exact absurd rfl (h es)
  | _ => rfl

end Held

/-! ## A layer laid over settings -/

/-- The entries of a map; other values have none. -/
def entriesOf : Value → Entries
  | .map es => es
  | _ => []

theorem isTree_entriesOf {v : Value} (h : v.IsTree) : (Value.map (entriesOf v)).IsTree := by
  cases v with
  | map es => exact h
  | _ => exact Value.isTree_nil

/-- The entries of the map under a key; there are none where there is no map. -/
def below (es : Entries) (k : Value) : Entries := (es.get? k).elim [] entriesOf

variable {es t : Entries}

theorem isTree_below (h : (Value.map es).IsTree) (k : Value) : (Value.map (below es k)).IsTree := by
  cases hv : es.get? k with
  | none =>
    rw [below, hv]
    exact Value.isTree_nil
  | some v =>
    rw [below, hv]
    exact isTree_entriesOf (h.get? hv)

theorem mergedValue_map (current : Option Value) (es : Entries) :
    mergedValue current (.map es) = .map (mergedEntries (current.elim [] entriesOf) es) := by
  cases current with
  | none => rfl
  | some c => cases c <;> rfl

mutual

theorem isTree_mergedValue {current : Option Value}
    (hc : (Value.map (current.elim [] entriesOf)).IsTree) :
    (v : Value) → v.IsTree → (mergedValue current v).IsTree
  | .map es, h => by
    rw [mergedValue_map]
    exact isTree_mergedEntries hc es h.2
  | .null, _ | .bool _, _ | .int _, _ | .binary _, _ | .decimal _, _ | .text _, _ | .bytes _, _
  | .moment _, _ | .date _, _ | .list _, _ | .tuple _, _ | .set _, _ | .record _, _ | .choice _, _
  | .request _ _, _ | .cursor _ _, _ | .finished _ _, _ | .function _ _, _ | .object _, _ => trivial

theorem isTree_mergedEntries {t : Entries} (ht : (Value.map t).IsTree) :
    (es : List (Value × Value)) → Value.EntriesAreTrees es → (Value.map (mergedEntries t es)).IsTree
  | [], _ => ht
  | (k, v) :: es, h => by
    rw [mergedEntries]
    exact isTree_mergedEntries (ht.insert h.1 (isTree_mergedValue (isTree_below ht k) v h.2.1)) es h.2.2

end

mutual

/-- Do two values agree on what is a map and what is a leaf, wherever both have something? -/
def agrees : Value → Value → Bool
  | .map es, .map fs => entriesAgree es fs
  | .map _, _ => false
  | _, .map _ => false
  | _, _ => true

/-- Do the values of entries agree with what is found under their keys? -/
def entriesAgree : List (Value × Value) → Entries → Bool
  | [], _ => true
  | (k, v) :: es, fs =>
    (match Entries.get? fs k with
      | some w => agrees v w
      | none => true) && entriesAgree es fs

end

/-- Are two settings the same, up to the order of their keys? -/
def SamePaths (es fs : Entries) : Prop := ∀ path, held (.map es) path = held (.map fs) path

theorem held_nil_ne_nothing (v : Value) : held v [] ≠ .nothing := by cases v <;> exact nofun

theorem exists_map_of_held {v : Value} (h : held v [] = .mapping) : ∃ es : Entries, v = .map es := by
  cases v with
  | map es => exact ⟨es, rfl⟩
  | _ => cases h

theorem sizeOf_lt_of_get? {es : Entries} {k v : Value} (h : es.get? k = some v) :
    sizeOf v < sizeOf (Value.map es) := by
  obtain ⟨l, hl, -⟩ := Entries.mem_of_get?_eq_some h
  have hlt := List.sizeOf_lt_of_mem hl
  simp only [Prod.mk.sizeOf_spec, Value.map.sizeOf_spec] at hlt ⊢
  omega

/-- Where the same paths go on after a key in two settings, there is nothing under the key, or values
with the same paths are. -/
theorem rel_get?_of_held {es fs : Entries} {R : Value → Value → Prop} (k : Key)
    (h : ∀ path, held (.map es) (k :: path) = held (.map fs) (k :: path))
    (hR : ∀ v w, es.get? k.1 = some v → fs.get? k.1 = some w →
      (∀ path, held v path = held w path) → R v w) :
    Option.Rel R (es.get? k.1) (fs.get? k.1) := by
  cases hv : es.get? k.1 with
  | none =>
    cases hw : fs.get? k.1 with
    | none => exact .none
    | some w =>
      have hnil := h []
      rw [held_of_get?_none hv, held_of_get? hw] at hnil
      exact absurd hnil.symm (held_nil_ne_nothing w)
  | some v =>
    cases hw : fs.get? k.1 with
    | none =>
      have hnil := h []
      rw [held_of_get? hv, held_of_get?_none hw] at hnil
      exact absurd hnil (held_nil_ne_nothing v)
    | some w =>
      refine .some (hR v w hv hw fun path => ?_)
      rw [← held_of_get? hv, h, held_of_get? hw]

/-- **Values with the same paths are equal**, if their leaves are. -/
theorem equal_of_held {v w : Value} (hv : v.IsTree) (hw : w.IsTree)
    (hpath : ∀ path, held v path = held w path)
    (hleaf : ∀ path x, held v path = .leaf x → x.equal x = true) : v.equal w = true := by
  induction hsize : sizeOf v using Nat.strongRecOn generalizing v w with
  | ind size ih =>
  have hnil := hpath []
  rcases map_or_leaf v with ⟨es, rfl⟩ | hv
  · obtain ⟨fs, rfl⟩ := exists_map_of_held hnil.symm
    refine Value.equal_map hv.names hw.names hv.1 hw.1 fun k hk => ?_
    refine rel_get?_of_held ⟨k, hk⟩ (fun path => hpath _) fun x y hx hy hpaths => ?_
    have hlt : sizeOf x < size := hsize ▸ sizeOf_lt_of_get? hx
    refine ih _ hlt (hv.get? hx) (hw.get? hy) hpaths (fun path z hz => ?_) rfl
    exact hleaf (⟨k, hk⟩ :: path) z (by rw [held_of_get? hx, hz])
  · have hself := hleaf [] v (held_leaf hv)
    rw [held_leaf hv] at hnil
    have hw : ∀ fs, w ≠ .map fs := by
      rintro fs rfl
      cases hnil
    rw [held_leaf hw] at hnil
    rwa [← Held.leaf.inj hnil]

/-- Settings that are the same up to the order of their keys are equal, if their leaves are. -/
theorem SamePaths.equal {es fs : Entries} (h : SamePaths es fs) (hes : (Value.map es).IsTree)
    (hfs : (Value.map fs).IsTree)
    (hleaf : ∀ path v, held (.map es) path = .leaf v → v.equal v = true) :
    (Value.map es).equal (.map fs) = true := equal_of_held hes hfs h hleaf

end Settings

end Listing
