import Mathlib.Data.List.Basic

/-!
# Buffers that are used again

What is received overwrites the start of a buffer and leaves the rest as it was.
-/

namespace OsCourseLabs

variable {α : Type*}

/-- The buffer after the data was stored at its start. -/
def overwrite (buffer data : List α) : List α := data ++ buffer.drop data.length

/-- Overwriting with nothing leaves the buffer. -/
@[simp] theorem overwrite_nil (buffer : List α) : overwrite buffer [] = buffer := rfl

/-- A buffer keeps its length under data that fits. -/
@[simp] theorem length_overwrite {buffer data : List α} (h : data.length ≤ buffer.length) :
    (overwrite buffer data).length = buffer.length := by
  rw [overwrite, List.length_append, List.length_drop]
  omega

/-- The start of the buffer is the data, the rest is as it was. -/
theorem getElem?_overwrite (buffer data : List α) (i : Nat) :
    (overwrite buffer data)[i]? = if i < data.length then data[i]? else buffer[i]? := by
  rw [overwrite, List.getElem?_append]
  split
  · rfl
  · rename_i h
    rw [List.getElem?_drop, Nat.add_sub_cancel' (Nat.not_lt.mp h)]

end OsCourseLabs
