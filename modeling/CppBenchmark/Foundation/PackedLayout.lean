import CppBenchmark.Foundation.ByteMemory
import Mathlib.Data.List.GetD

/-!
# Packed record layouts

A packed layout is the list of the sizes of its fields. A field of an object is the part
of its bytes that starts where the fields before it end, so the fields of a concatenation
of parts are the parts.
-/

namespace PackedLayout

variable {sizes : List Nat} {i : Nat}

def sizeof (sizes : List Nat) : Nat := sizes.sum

def offset (sizes : List Nat) (i : Nat) : Nat := (sizes.take i).sum

def field (sizes : List Nat) (object : List UInt8) (i : Nat) : List UInt8 :=
  (object.drop (offset sizes i)).take (sizes.getD i 0)

lemma field_flatten (parts : List (List UInt8)) (i : Nat) (hi : i < parts.length) :
    field (parts.map List.length) parts.flatten i = parts[i] := by
  induction parts generalizing i with
  | nil => exact absurd hi (Nat.not_lt_zero i)
  | cons part parts ih =>
    cases i with
    | zero => simp [field, offset]
    | succ i =>
      have h := ih i (by simpa using hi)
      simp only [field, offset, List.map_cons, List.take_succ_cons, List.sum_cons,
        List.flatten_cons, List.drop_append, List.getD_cons_succ, List.getElem_cons_succ] at h ⊢
      rw [List.drop_eq_nil_of_le (Nat.le_add_right _ _), List.nil_append, Nat.add_sub_cancel_left, h]

/-- The fields of an object in memory. -/
lemma field_read (m : ByteMemory.Memory) (a : Nat) (hi : i < sizes.length) :
    field sizes (m.read a (sizeof sizes)) i = m.read (a + offset sizes i) (sizes.getD i 0) := by
  have hrest : sizeof sizes = offset sizes i + (sizes.getD i 0 + (sizes.drop (i + 1)).sum) := by
    rw [sizeof, offset, ← List.sum_take_add_sum_drop sizes i, List.drop_eq_getElem_cons hi,
      List.sum_cons, List.getD_eq_getElem _ _ hi]
  rw [field, hrest, ByteMemory.Memory.read_add, ByteMemory.Memory.read_add,
    List.drop_left' (ByteMemory.Memory.read_length _ _ _),
    List.take_left' (ByteMemory.Memory.read_length _ _ _)]

/-- An object of a layout, as the parts that its fields hold. -/
structure PackedObject (sizes : List Nat) where
  parts : List (List UInt8)
  parts_sizes : parts.map List.length = sizes

namespace PackedObject

variable (object : PackedObject sizes)

def bytes : List UInt8 := object.parts.flatten

lemma bytes_length : object.bytes.length = sizeof sizes := by
  rw [bytes, List.length_flatten, object.parts_sizes, sizeof]

lemma field_bytes {part : List UInt8} (hpart : object.parts[i]? = some part) :
    field sizes object.bytes i = part := by
  obtain ⟨hi, rfl⟩ := List.getElem?_eq_some_iff.mp hpart
  rw [bytes, ← field_flatten object.parts i hi, object.parts_sizes]

end PackedObject

end PackedLayout
