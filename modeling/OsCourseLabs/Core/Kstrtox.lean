import OsCourseLabs.Core.Decimal
import OsCourseLabs.Core.Errno

/-!
# Integers read by the kernel

The conversions of the kernel library accept a whole string: an optional sign, digits, and
at most one newline before the terminator. A number that does not fit the type is told apart
from a string that is no number.
-/

namespace OsCourseLabs.Kstrtox

open CString Decimal

/-- A value of type `int`. -/
structure CInt where
  val : Int
  lower : -2147483648 ≤ val
  upper : val ≤ 2147483647
  deriving DecidableEq, Repr

/-- What a static variable of type `int` starts with. -/
def CInt.zero : CInt := ⟨0, by decide, by decide⟩

/-- `_kstrtoull` in base ten, on the bytes before the terminator. -/
def kstrtoullDigits (s : List UInt8) : Except Int Nat :=
  let digits := s.takeWhile isDigit
  let rest := s.dropWhile isDigit
  if 18446744073709551616 ≤ value digits then .error (-ERANGE)
  else if digits = [] then .error (-EINVAL)
  else if rest = [] ∨ rest = [10] then .ok (value digits)
  else .error (-EINVAL)

/-- `kstrtoull` in base ten: a plus sign is passed over. -/
def kstrtoull (s : List UInt8) : Except Int Nat :=
  kstrtoullDigits (if s.head? = some 43 then s.tail else s)

/-- `kstrtoll`: a minus sign is passed over, and the range is one larger behind it. -/
def kstrtoll (s : List UInt8) : Except Int Int :=
  if s.head? = some 45 then
    (kstrtoullDigits s.tail).bind fun tmp =>
      if 9223372036854775808 < tmp then .error (-ERANGE) else .ok (-tmp)
  else
    (kstrtoull s).bind fun tmp =>
      if 9223372036854775808 ≤ tmp then .error (-ERANGE) else .ok tmp

/-- `kstrtoint`: a `long long` that fits an `int`. -/
def kstrtoint (s : List UInt8) : Except Int CInt :=
  (kstrtoll s).bind fun tmp =>
    if h : -2147483648 ≤ tmp ∧ tmp ≤ 2147483647 then .ok ⟨tmp, h.1, h.2⟩ else .error (-ERANGE)

/-- The string is a run of digits of the value, and at most one newline. -/
def Unsigned (s : List UInt8) (n : Nat) : Prop :=
  ∃ digits, digits ≠ [] ∧ (∀ b ∈ digits, isDigit b = true) ∧ value digits = n ∧
    (s = digits ∨ s = digits ++ [10])

/-- The string is a signed or unsigned decimal number of the value, and at most one newline. -/
def Numeral (s : List UInt8) (v : Int) : Prop :=
  ∃ t n, Unsigned t n ∧ ((s = t ∨ s = 43 :: t) ∧ v = n ∨ s = 45 :: t ∧ v = -n)

/-- An unsigned number starts with a digit. -/
theorem Unsigned.head {s : List UInt8} {n : Nat} (h : Unsigned s n) :
    ∃ b rest, s = b :: rest ∧ isDigit b = true := by
  obtain ⟨digits, hne, hall, _, hs⟩ := h
  obtain ⟨b, digits, rfl⟩ := List.exists_cons_of_ne_nil hne
  rcases hs with rfl | rfl
  · exact ⟨b, _, rfl, hall b (by simp)⟩
  · exact ⟨b, _, rfl, hall b (by simp)⟩

/-- A digit is neither sign. -/
theorem not_sign_of_isDigit {b : UInt8} (h : isDigit b = true) : b ≠ 45 ∧ b ≠ 43 := by
  constructor <;> rintro rfl <;> exact absurd h (by decide)

/-- Digits are converted if their value fits 64 bits. -/
theorem kstrtoullDigits_of_unsigned {s : List UInt8} {n : Nat} (h : Unsigned s n) :
    kstrtoullDigits s = if 18446744073709551616 ≤ n then .error (-ERANGE) else .ok n := by
  obtain ⟨digits, hne, hall, rfl, hs⟩ := h
  obtain ⟨rest, rfl, hrest⟩ : ∃ rest, s = digits ++ rest ∧ (rest = [] ∨ rest = [10]) := by
    rcases hs with rfl | rfl
    · exact ⟨[], by simp, Or.inl rfl⟩
    · exact ⟨[10], rfl, Or.inr rfl⟩
  have hstop : ∀ b ∈ rest.head?, isDigit b = false := by
    rcases hrest with rfl | rfl <;> simp [isDigit]
  obtain ⟨htake, hdrop⟩ := takeWhile_digits hall hstop
  simp only [kstrtoullDigits, htake, hdrop, if_pos hrest, if_neg hne]

/-- A plus sign makes no difference. -/
theorem kstrtoull_of_unsigned {s t : List UInt8} {n : Nat} (h : Unsigned t n)
    (hs : s = t ∨ s = 43 :: t) : kstrtoull s = kstrtoullDigits t := by
  rcases hs with rfl | rfl
  · obtain ⟨b, rest, rfl, hb⟩ := h.head
    rw [kstrtoull, if_neg (by simpa using (not_sign_of_isDigit hb).2)]
  · rfl

/-- A number is converted if it fits, and refused as out of range otherwise. -/
theorem kstrtoll_of_numeral {s : List UInt8} {v : Int} (h : Numeral s v) :
    kstrtoll s = if -9223372036854775808 ≤ v ∧ v < 9223372036854775808 then .ok v
      else .error (-ERANGE) := by
  obtain ⟨t, n, hu, ⟨hs, rfl⟩ | ⟨rfl, rfl⟩⟩ := h
  · have hhead : s.head? ≠ some 45 := by
      obtain ⟨b, rest, rfl, hb⟩ := hu.head
      rcases hs with rfl | rfl
      · simpa using (not_sign_of_isDigit hb).1
      · simp
    rw [kstrtoll, if_neg hhead, kstrtoull_of_unsigned hu hs, kstrtoullDigits_of_unsigned hu]
    by_cases hbig : 18446744073709551616 ≤ n
    · rw [if_pos hbig, if_neg (by omega)]
      rfl
    · rw [if_neg hbig]
      simp only [Except.bind]
      split
      · rw [if_neg (by omega)]
      · rw [if_pos (by omega)]
  · rw [kstrtoll, if_pos List.head?_cons, List.tail_cons, kstrtoullDigits_of_unsigned hu]
    by_cases hbig : 18446744073709551616 ≤ n
    · rw [if_pos hbig, if_neg (by omega)]
      rfl
    · rw [if_neg hbig]
      simp only [Except.bind]
      split
      · rw [if_neg (by omega)]
      · rw [if_pos (by omega)]

/-- A number is converted if it fits an `int`, and refused as out of range otherwise. -/
theorem kstrtoint_of_numeral {s : List UInt8} {v : Int} (h : Numeral s v) :
    kstrtoint s = if hv : -2147483648 ≤ v ∧ v ≤ 2147483647 then .ok ⟨v, hv.1, hv.2⟩
      else .error (-ERANGE) := by
  rw [kstrtoint, kstrtoll_of_numeral h]
  by_cases hv : -9223372036854775808 ≤ v ∧ v < 9223372036854775808
  · rw [if_pos hv]
    rfl
  · rw [if_neg hv, dif_neg (by omega)]
    rfl

/-- Only digits and a newline are converted. -/
theorem kstrtoullDigits_sound {s : List UInt8} {n : Nat} (h : kstrtoullDigits s = .ok n) :
    Unsigned s n := by
  simp only [kstrtoullDigits] at h
  split at h
  · cases h
  · split at h
    · cases h
    · next hne =>
      split at h
      · next hrest =>
        cases h
        refine ⟨_, hne, fun b hb => List.mem_takeWhile_imp hb, rfl, ?_⟩
        have happ := List.takeWhile_append_dropWhile (p := isDigit) (l := s)
        rcases hrest with hrest | hrest <;> rw [hrest] at happ
        · exact Or.inl (by simpa using happ.symm)
        · exact Or.inr happ.symm
      · cases h

/-- Only a number is converted, and to its value. -/
theorem kstrtoll_sound {s : List UInt8} {v : Int} (h : kstrtoll s = .ok v) : Numeral s v := by
  unfold kstrtoll at h
  split at h
  · next hhead =>
    obtain ⟨t, rfl⟩ := List.head?_eq_some_iff.mp hhead
    cases hn : kstrtoullDigits t with
    | error e => simp [hn, Except.bind] at h
    | ok n =>
      simp only [List.tail_cons, hn, Except.bind] at h
      split at h <;> cases h
      exact ⟨t, n, kstrtoullDigits_sound hn, Or.inr ⟨rfl, rfl⟩⟩
  · cases hn : kstrtoull s with
    | error e => simp [hn, Except.bind] at h
    | ok n =>
      simp only [hn, Except.bind] at h
      split at h <;> cases h
      unfold kstrtoull at hn
      split at hn
      · next hplus =>
        obtain ⟨t, rfl⟩ := List.head?_eq_some_iff.mp hplus
        exact ⟨t, n, kstrtoullDigits_sound hn, Or.inl ⟨Or.inr rfl, rfl⟩⟩
      · exact ⟨s, n, kstrtoullDigits_sound hn, Or.inl ⟨Or.inl rfl, rfl⟩⟩

/-- A string is accepted exactly when it is a number that fits. -/
theorem kstrtoint_eq_ok_iff {s : List UInt8} {v : CInt} :
    kstrtoint s = .ok v ↔ Numeral s v.val := by
  constructor
  · intro h
    cases hn : kstrtoll s with
    | error e => simp [kstrtoint, hn, Except.bind] at h
    | ok tmp =>
      simp only [kstrtoint, hn, Except.bind] at h
      split at h <;> cases h
      exact kstrtoll_sound hn
  · intro h
    rw [kstrtoint_of_numeral h, dif_pos ⟨v.lower, v.upper⟩]

/-- A refusal is one of two. -/
theorem kstrtoullDigits_error {s : List UInt8} {e : Int} (h : kstrtoullDigits s = .error e) :
    e = -EINVAL ∨ e = -ERANGE := by
  simp only [kstrtoullDigits] at h
  split at h
  · cases h
    exact Or.inr rfl
  · split at h
    · cases h
      exact Or.inl rfl
    · split at h <;> cases h
      exact Or.inl rfl

/-- Of two steps in a row the first fails or the second does. -/
theorem bind_eq_error {α β : Type} {x : Except Int α} {f : α → Except Int β} {e : Int}
    (h : x.bind f = .error e) : x = .error e ∨ ∃ a, x = .ok a ∧ f a = .error e := by
  cases x with
  | error e' => exact Or.inl (congrArg Except.error (Except.error.inj h))
  | ok a => exact Or.inr ⟨a, rfl, h⟩

/-- The conversion fails with one of two errors. -/
theorem kstrtoint_error {s : List UInt8} {e : Int} (h : kstrtoint s = .error e) :
    e = -EINVAL ∨ e = -ERANGE := by
  rcases bind_eq_error h with hll | ⟨_, _, hfit⟩
  · unfold kstrtoll at hll
    split at hll
    · rcases bind_eq_error hll with hdigits | ⟨_, _, hfit⟩
      · exact kstrtoullDigits_error hdigits
      · split at hfit <;> cases hfit
        exact Or.inr rfl
    · rcases bind_eq_error hll with hdigits | ⟨_, _, hfit⟩
      · exact kstrtoullDigits_error hdigits
      · split at hfit <;> cases hfit
        exact Or.inr rfl
  · split at hfit <;> cases hfit
    exact Or.inr rfl

/-- What is printed for a value, with a newline, is a number of that value. -/
theorem numeral_printInt (v : Int) : Numeral (printInt v ++ [10]) v := by
  cases v with
  | ofNat n =>
    exact ⟨_, n, ⟨printNat n, printNat_ne_nil n, fun _ => isDigit_of_mem_printNat,
      value_printNat n, Or.inr rfl⟩, Or.inl ⟨Or.inl rfl, rfl⟩⟩
  | negSucc n =>
    exact ⟨_, n + 1, ⟨printNat (n + 1), printNat_ne_nil _, fun _ => isDigit_of_mem_printNat,
      value_printNat _, Or.inr rfl⟩, Or.inr ⟨rfl, Int.negSucc_eq n⟩⟩

end OsCourseLabs.Kstrtox
