import Confos.Library.ByteStrings

/-!
# Overwriting bytes

A byte string with some of its bytes overwritten in place: its slices beside
the overwritten bytes, and slices that are put together.
-/

namespace Confos.Library.Patches

open Confos.Library.ByteStrings

/-! ## Slices -/

section

variable {data : Bytes}

/-- A longer slice is a slice and the slice behind it. -/
theorem slice_add (start first second : Nat) :
    slice data start (first + second) =
      slice data start first ++ slice data (start + first) second := by
  rw [slice, slice, slice, List.take_add, List.drop_drop]

/-- Two slices that meet are one. -/
theorem slice_append_slice
    {start middle stop : Nat} (first : start ≤ middle) (second : middle ≤ stop) :
    slice data start (middle - start) ++ slice data middle (stop - middle) =
      slice data start (stop - start) := by
  have sizes : stop - start = (middle - start) + (stop - middle) := by omega
  rw [sizes, slice_add, Nat.add_sub_cancel' first]

theorem slice_append_left
    {start size : Nat} (inside : start + size ≤ data.length) (rest : Bytes) :
    slice (data ++ rest) start size = slice data start size := by
  rw [slice, slice, List.drop_append_of_le_length (by omega),
    List.take_append_of_le_length]
  rw [List.length_drop]
  omega

theorem getElem?_slice
    {start size index : Nat} (inside : index < size) :
    (slice data start size)[index]? = data[start + index]? := by
  rw [slice, List.getElem?_take_of_lt inside, List.getElem?_drop]

/-- Slices of one place are equal where the bytes are. -/
theorem getElem?_eq_of_slice_eq
    {other : Bytes} {start size index : Nat}
    (same : slice data start size = slice other start size)
    (lower : start ≤ index) (upper : index < start + size) :
    data[index]? = other[index]? := by
  have entry := congrArg (fun bytes => bytes[index - start]?) same
  rwa [getElem?_slice (by omega), getElem?_slice (by omega),
    Nat.add_sub_cancel' lower] at entry

/-! ## Patches -/

/-- `data` with the bytes from `offset` on overwritten. -/
def patch (data : Bytes) (offset : Nat) (bytes : Bytes) : Bytes :=
  data.take offset ++ (bytes ++ data.drop (offset + bytes.length))

variable {offset start size : Nat} {bytes : Bytes}

theorem length_patch (fits : offset + bytes.length ≤ data.length) :
    (patch data offset bytes).length = data.length := by
  simp only [patch, List.length_append, List.length_take, List.length_drop]
  omega

theorem slice_patch_before
    (fits : offset ≤ data.length) (before : start + size ≤ offset) :
    slice (patch data offset bytes) start size = slice data start size := by
  rw [patch, slice_append_left, slice_take before]
  rw [List.length_take]
  omega

theorem slice_patch_self (fits : offset ≤ data.length) :
    slice (patch data offset bytes) offset bytes.length = bytes := by
  have front : (data.take offset).length = offset := by
    rw [List.length_take, Nat.min_eq_left fits]
  rw [patch, slice, List.drop_left' front, List.take_left]

theorem slice_patch_behind
    (fits : offset ≤ data.length) (behind : offset + bytes.length ≤ start) :
    slice (patch data offset bytes) start size = slice data start size := by
  have front : (data.take offset ++ bytes).length = offset + bytes.length := by
    rw [List.length_append, List.length_take, Nat.min_eq_left fits]
  have position : start = offset + bytes.length + (start - (offset + bytes.length)) := by
    omega
  rw [patch, ← List.append_assoc, slice, slice, position, ← List.drop_drop,
    List.drop_left' front, List.drop_drop]

end

end Confos.Library.Patches
