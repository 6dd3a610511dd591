import Mathlib.Data.List.TakeWhile

/-!
# C strings in byte lists

A byte list read as a C string ends at its first NUL byte. Comparison follows the
byte-by-byte loop of the C library; it decides equality of the strings read.
-/

namespace OsCourseLabs.CString

/-- The C-string reading of a byte list: the bytes before the first NUL. -/
def cstr (bytes : List UInt8) : List UInt8 := bytes.takeWhile (· ≠ 0)

/-- The bytes of a C string literal, without the terminator. -/
def ascii (cs : List Char) : List UInt8 := cs.map fun c => UInt8.ofNat c.toNat

/-- The comparison loop; memory past the end of a list reads as NUL. -/
def strcmp : List UInt8 → List UInt8 → Int
  | [], [] => 0
  | [], y :: _ => if y = 0 then 0 else -1
  | x :: _, [] => if x = 0 then 0 else 1
  | x :: xs, y :: ys =>
    if x < y then -1
    else if y < x then 1
    else if x = 0 then 0
    else strcmp xs ys

/-- How many bytes of the first string the comparison loop reads before it stops. -/
def strcmpReads : List UInt8 → List UInt8 → Nat
  | x :: xs, y :: ys => if x = y ∧ x ≠ 0 then strcmpReads xs ys + 1 else 1
  | _, _ => 1

/-- Nothing is no text. -/
@[simp] theorem cstr_nil : cstr [] = [] := rfl

/-- The text ends at the first NUL. -/
theorem cstr_cons (x : UInt8) (xs : List UInt8) :
    cstr (x :: xs) = if x = 0 then [] else x :: cstr xs := by
  by_cases h : x = 0 <;> simp [cstr, h]

/-- What follows a NUL byte is not part of the string. -/
theorem cstr_append_zero (xs ys : List UInt8) : cstr (xs ++ 0 :: ys) = cstr xs := by
  induction xs with
  | nil => simp [cstr_cons]
  | cons x xs ih => simp only [List.cons_append, cstr_cons, ih]

/-- What follows a list with a NUL byte is not part of the string. -/
theorem cstr_append_of_mem {xs : List UInt8} (h : 0 ∈ xs) (ys : List UInt8) :
    cstr (xs ++ ys) = cstr xs := by
  obtain ⟨as, bs, rfl⟩ := List.append_of_mem h
  rw [List.append_assoc, List.cons_append, cstr_append_zero, cstr_append_zero]

/-- A list without NUL byte is part of the string. -/
theorem cstr_append_of_not_mem {xs : List UInt8} (h : 0 ∉ xs) (ys : List UInt8) :
    cstr (xs ++ ys) = xs ++ cstr ys := by
  induction xs with
  | nil => rfl
  | cons x xs ih =>
    have hx := List.ne_and_not_mem_of_not_mem_cons h
    rw [List.cons_append, cstr_cons, if_neg (Ne.symm hx.1), ih hx.2]
    rfl

/-- Without a NUL the bytes are the text. -/
theorem cstr_of_not_mem {xs : List UInt8} (h : 0 ∉ xs) : cstr xs = xs := by
  simpa using cstr_append_of_not_mem h []

/-- The string of a list is no longer than the list. -/
theorem length_cstr_le (xs : List UInt8) : (cstr xs).length ≤ xs.length :=
  (List.takeWhile_prefix _).length_le

/-- A reader that has to find the end of the string stays inside the first of two lists exactly
when there is a NUL byte in it. -/
theorem length_cstr_append_lt_iff (xs ys : List UInt8) :
    (cstr (xs ++ ys)).length < xs.length ↔ 0 ∈ xs := by
  by_cases h : 0 ∈ xs
  · obtain ⟨as, bs, rfl⟩ := List.append_of_mem h
    have hle := length_cstr_le as
    rw [List.append_assoc, List.cons_append, cstr_append_zero]
    refine iff_of_true ?_ h
    simp only [List.length_append, List.length_cons]
    omega
  · rw [cstr_append_of_not_mem h, List.length_append]
    exact iff_of_false (by omega) h

/-- Comparison answers zero exactly when the two strings are the same. -/
theorem strcmp_eq_zero_iff (xs ys : List UInt8) : strcmp xs ys = 0 ↔ cstr xs = cstr ys := by
  induction xs generalizing ys with
  | nil =>
    cases ys with
    | nil => simp [strcmp]
    | cons y ys => by_cases hy : y = 0 <;> simp [strcmp, cstr_cons, hy]
  | cons x xs ih =>
    cases ys with
    | nil => by_cases hx : x = 0 <;> simp [strcmp, cstr_cons, hx]
    | cons y ys =>
      by_cases he : x = y
      · subst y
        by_cases hx : x = 0
        · simp [strcmp, cstr_cons, hx]
        · simp [strcmp, cstr_cons, hx, ih]
      · -- two different bytes end the loop with a non-zero answer on either side
        have hne : strcmp (x :: xs) (y :: ys) ≠ 0 := by
          by_cases hlt : x < y
          · simp [strcmp, hlt]
          · have hgt : y < x := by
              rw [UInt8.lt_iff_toNat_lt] at hlt ⊢
              have hv : x.toNat ≠ y.toNat := fun h => he (UInt8.toNat_inj.mp h)
              omega
            simp [strcmp, hlt, hgt]
        have hstr : cstr (x :: xs) ≠ cstr (y :: ys) := by
          by_cases hx : x = 0 <;> by_cases hy : y = 0 <;> simp [cstr_cons, hx, hy, he]
          exact he (hx.trans hy.symm)
        exact ⟨fun h => absurd h hne, fun h => absurd h hstr⟩

/-- The loop does not read past a NUL byte. -/
theorem strcmpReads_le (xs ys zs : List UInt8) :
    strcmpReads (xs ++ 0 :: zs) ys ≤ xs.length + 1 := by
  induction xs generalizing ys with
  | nil => cases ys <;> simp [strcmpReads]
  | cons x xs ih =>
    cases ys with
    | nil => simp [strcmpReads]
    | cons y ys =>
      have hrest := ih ys
      simp only [List.cons_append, strcmpReads, List.length_cons]
      split <;> omega

/-- A word without NUL is read from exactly the lists that it starts, whole or up to a NUL. -/
theorem cstr_eq_iff {w : List UInt8} (hw : ∀ x ∈ w, x ≠ 0) (xs : List UInt8) :
    cstr xs = w ↔ xs = w ∨ ∃ rest, xs = w ++ 0 :: rest := by
  induction xs generalizing w with
  | nil =>
    rw [cstr_nil]
    constructor
    · rintro rfl
      exact Or.inl rfl
    · rintro (h | ⟨rest, h⟩)
      · exact h
      · exact absurd h (by simp)
  | cons x xs ih =>
    rw [cstr_cons]
    cases w with
    | nil => by_cases hx : x = 0 <;> simp [hx]
    | cons y w =>
      have hrest := ih (w := w) fun z hz => hw z (List.mem_cons_of_mem _ hz)
      have hy : y ≠ 0 := hw y (by simp)
      by_cases hx : x = 0
      · simp [hx, Ne.symm hy]
      · simp only [hx, ite_false, List.cons.injEq, List.cons_append, hrest]
        constructor
        · rintro ⟨rfl, h | ⟨rest, h⟩⟩
          · exact Or.inl ⟨rfl, h⟩
          · exact Or.inr ⟨rest, rfl, h⟩
        · rintro (⟨rfl, h⟩ | ⟨rest, rfl, h⟩)
          · exact ⟨rfl, Or.inl h⟩
          · exact ⟨rfl, Or.inr ⟨rest, h⟩⟩

/-- Cutting a list after more bytes than a word has does not change whether the word is read. -/
theorem cstr_take_eq_iff {w : List UInt8} {n : Nat} (h : w.length < n) (xs : List UInt8) :
    cstr (xs.take n) = w ↔ cstr xs = w := by
  induction xs generalizing w n with
  | nil => simp
  | cons x xs ih =>
    obtain ⟨n, rfl⟩ : ∃ m, n = m + 1 := ⟨n - 1, by omega⟩
    rw [List.take_succ_cons, cstr_cons, cstr_cons]
    by_cases hx : x = 0
    · simp [hx]
    · cases w with
      | nil => simp [hx]
      | cons y w => simp [hx, ih (w := w) (by simpa using h)]

end OsCourseLabs.CString
