import Listing.Proofs.Outcome
import Listing.Proofs.Value.Entries
import Mathlib.Data.List.Perm.Basic

/-!
# Data

Null, truth values, integers and texts are data, and so are lists of data, and maps that hold data under
distinct texts and integers: `Value.IsData`. Data equal themselves (`Value.IsData.equal_self`). Maps are
equal that hold equal values under the same keys, in whatever order (`Value.equal_map`).
-/

namespace Listing.Value

mutual

/-- Is the value plain data? -/
def IsData : Value → Prop
  | .null | .bool _ | .int _ | .text _ => True
  | .list vs => ItemsAreData vs
  | .map es => Entries.Distinct es ∧ EntriesAreData es
  | _ => False

/-- Are all items data? -/
def ItemsAreData : List Value → Prop
  | [] => True
  | v :: vs => IsData v ∧ ItemsAreData vs

/-- Are all keys texts or integers, and all values data? -/
def EntriesAreData : List (Value × Value) → Prop
  | [] => True
  | (k, v) :: es => k.IsName ∧ IsData v ∧ EntriesAreData es

end

theorem entriesAreData_iff {es : Entries} :
    EntriesAreData es ↔ ∀ e ∈ es, e.1.IsName ∧ IsData e.2 := by
  induction es with
  | nil => simp [EntriesAreData]
  | cons e es ih =>
    obtain ⟨k, v⟩ := e
    simp [EntriesAreData, ih, and_assoc]

/-- Values are equal exactly if they can be compared and mean the same. -/
theorem equal_iff {v w : Value} : v.equal w = true ↔ v.equal? w = .ok true := by
  unfold equal isYes
  cases v.equal? w <;> simp

section Maps

variable {es fs : Entries}

/-- Under names it is the same to look for a key, and to look whether it is found. -/
theorem find?_eq (hfs : ∀ f ∈ fs, f.1.IsName) {k : Value} (hk : k.IsName) :
    fs.find? (fun f => isYes (equal? k f.1)) = fs.find? (fun f => f.1.equal k) := by
  induction fs with
  | nil => rfl
  | cons f fs ih =>
    have hf := hfs f (List.mem_cons_self ..)
    have hsame : isYes (equal? k f.1) = f.1.equal k := by
      rw [Bool.eq_iff_iff]
      exact (hk.equal_iff hf).trans (eq_comm.trans (hf.equal_iff hk).symm)
    rw [List.find?_cons, List.find?_cons, hsame, ih fun f hf => hfs f (List.mem_cons_of_mem _ hf)]

theorem submap?_of_get? (hes : ∀ e ∈ es, e.1.IsName) (hfs : ∀ f ∈ fs, f.1.IsName)
    (h : ∀ e ∈ es, ∃ w, fs.get? e.1 = some w ∧ e.2.equal w = true) :
    submap? es fs = .ok true := by
  induction es with
  | nil => rw [submap?]
  | cons e es ih =>
    obtain ⟨k, v⟩ := e
    obtain ⟨w, hw, hvw⟩ := h (k, v) (List.mem_cons_self ..)
    obtain ⟨f, hf, rfl⟩ := Option.map_eq_some_iff.1 hw
    have hrest := ih (fun e he => hes e (List.mem_cons_of_mem _ he))
      fun e he => h e (List.mem_cons_of_mem _ he)
    rw [submap?, find?_eq hfs (hes (k, v) (List.mem_cons_self ..)), hf]
    simp only [equal_iff.1 hvw, ok_bind, if_true, hrest]

/-- **Maps are equal that hold equal values under the same keys.** -/
theorem equal_map (hes : ∀ e ∈ es, e.1.IsName) (hfs : ∀ f ∈ fs, f.1.IsName)
    (hde : Entries.Distinct es) (hdf : Entries.Distinct fs)
    (h : ∀ k, k.IsName → Option.Rel (fun v w => v.equal w = true) (es.get? k) (fs.get? k)) :
    (Value.map es).equal (.map fs) = true := by
  have hkeys : ∀ k, k ∈ Entries.keys es ↔ k ∈ Entries.keys fs := by
    intro k
    by_cases hk : k.IsName
    · rw [← Entries.exists_get?_iff hes hk, ← Entries.exists_get?_iff hfs hk]
      have hrel := h k hk
      generalize es.get? k = v, fs.get? k = w at hrel ⊢
      cases hrel with
      | none => rfl
      | some => exact ⟨fun _ => ⟨_, rfl⟩, fun _ => ⟨_, rfl⟩⟩
    · have hnone : ∀ gs : Entries, (∀ g ∈ gs, g.1.IsName) → k ∉ Entries.keys gs := by
        intro gs hgs hmem
        obtain ⟨g, hg, rfl⟩ := List.mem_map.1 hmem
        exact hk (hgs g hg)
      exact iff_of_false (hnone es hes) (hnone fs hfs)
  have hlength : es.length = fs.length := by
    have hperm := (List.perm_ext_iff_of_nodup (hde.nodup_keys hes) (hdf.nodup_keys hfs)).2 hkeys
    simpa [Entries.keys] using hperm.length_eq
  rw [equal_iff, equal?, hlength, beq_self_eq_true, if_pos rfl]
  refine submap?_of_get? hes hfs fun e he => ?_
  have hrel := h e.1 (hes e he)
  rw [Entries.get?_eq_some_of_mem hes hde he] at hrel
  generalize fs.get? e.1 = found at hrel ⊢
  cases hrel with
  | some hvw => exact ⟨_, rfl, hvw⟩

end Maps

mutual

theorem IsData.equal?_self : (v : Value) → v.IsData → v.equal? v = .ok true
  | .null, _ => by rw [equal?]
  | .bool b, _ => by cases b <;> exact equal_iff.1 (by decide +kernel)
  | .int n, _ => equal_iff.1 (isName_int n).equal_self
  | .text s, _ => equal_iff.1 (isName_text s).equal_self
  | .list vs, h => by
    rw [equal?, beq_self_eq_true, if_pos rfl]
    exact equalItems?_self vs h
  | .map es, h => by
    rw [equal?, beq_self_eq_true, if_pos rfl]
    have hnames : ∀ e ∈ es, e.1.IsName := fun e he => (entriesAreData_iff.1 h.2 e he).1
    refine submap?_of_get? hnames hnames fun e he => ⟨e.2, ?_, equal_iff.2 ?_⟩
    · exact Entries.get?_eq_some_of_mem hnames h.1 he
    · exact IsData.entriesEqual?_self es h.2 e he

theorem IsData.equalItems?_self : (vs : List Value) → ItemsAreData vs → equalItems? vs vs = .ok true
  | [], _ => by rw [equalItems?]
  | v :: vs, h => by
    rw [equalItems?, IsData.equal?_self v h.1, ok_bind, if_pos rfl]
    exact IsData.equalItems?_self vs h.2

theorem IsData.entriesEqual?_self : (es : List (Value × Value)) → EntriesAreData es →
    ∀ e ∈ es, e.2.equal? e.2 = .ok true
  | [], _, _, he => absurd he List.not_mem_nil
  | (k, v) :: es, h, e, he => by
    rcases List.mem_cons.1 he with rfl | he
    · exact IsData.equal?_self v h.2.1
    · exact IsData.entriesEqual?_self es h.2.2 e he

end

/-- **Data equal themselves.** -/
theorem IsData.equal_self {v : Value} (h : v.IsData) : v.equal v = true :=
  equal_iff.2 (IsData.equal?_self v h)

end Listing.Value
