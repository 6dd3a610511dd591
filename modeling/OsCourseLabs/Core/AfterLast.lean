import Mathlib.Data.List.DropRight

/-!
# What comes after the last occurrence

In a sequence of letters read from the left, what a letter undoes is all that came before its
last occurrence.
-/

namespace OsCourseLabs

variable {α : Type*} [DecidableEq α]

/-- The letters after the last occurrence of one of them; all, where it does not occur. -/
def afterLast (a : α) (l : List α) : List α := l.rtakeWhile (· ≠ a)

/-- Nothing comes after an occurrence at the end. -/
theorem afterLast_concat_self (a : α) (l : List α) : afterLast a (l ++ [a]) = [] := by
  simp [afterLast]

/-- Another element at the end comes after the last occurrence. -/
theorem afterLast_concat_of_ne {a b : α} (h : b ≠ a) (l : List α) :
    afterLast a (l ++ [b]) = afterLast a l ++ [b] := by simp [afterLast, h]

/-- What comes after is in the list. -/
theorem afterLast_subset (a : α) (l : List α) : afterLast a l ⊆ l :=
  (List.rtakeWhile_suffix _ l).subset

/-- Of two letters the one occurs after the last occurrence of the other exactly if the other
does not occur after its own last one. -/
theorem mem_afterLast_iff {a b : α} (hab : a ≠ b) {l : List α} (ha : a ∈ l) :
    a ∈ afterLast b l ↔ b ∉ afterLast a l := by
  induction l using List.reverseRecOn with
  | nil => cases ha
  | append_singleton l c ih =>
    by_cases hca : c = a
    · subst c
      rw [afterLast_concat_of_ne hab, afterLast_concat_self]
      exact iff_of_true (by simp) (by simp)
    by_cases hcb : c = b
    · subst c
      rw [afterLast_concat_self, afterLast_concat_of_ne (Ne.symm hab)]
      exact iff_of_false (by simp) (by simp)
    · have hmem : a ∈ l := by simpa [Ne.symm hca] using ha
      rw [afterLast_concat_of_ne hca, afterLast_concat_of_ne hcb]
      simpa [Ne.symm hca, Ne.symm hcb] using ih hmem

end OsCourseLabs
