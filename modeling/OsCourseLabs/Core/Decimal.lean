import Mathlib.Data.List.TakeWhile
import OsCourseLabs.Core.CString

/-!
# Decimal numerals in byte strings

Numbers are printed as runs of digits, with a minus sign in front of a negative one. A
reader takes the longest run of digits at the start of what it reads. What was printed is
read back whole and with its value.
-/

namespace OsCourseLabs.Decimal

open CString

def isDigit (b : UInt8) : Bool := 48 ≤ b.toNat ∧ b.toNat ≤ 57

/-- The value of a run of digits. -/
def value (digits : List UInt8) : Nat := digits.foldl (fun n b => 10 * n + (b.toNat - 48)) 0

/-- `%u`. -/
def printNat (n : Nat) : List UInt8 := ascii (Nat.toDigits 10 n)

/-- `%d`. -/
def printInt : Int → List UInt8
  | .ofNat n => printNat n
  | .negSucc n => 45 :: printNat (n + 1)

theorem printNat_ne_nil (n : Nat) : printNat n ≠ [] := by
  simp [printNat, ascii, Nat.toDigits_ne_nil]

/-- A digit character is the byte of its code. -/
theorem toNat_ofNat_of_isDigit {c : Char} (h : c.isDigit = true) :
    (UInt8.ofNat c.toNat).toNat = c.toNat := by
  have hc := Char.isDigit_iff_toNat.mp h
  have hlt : c.toNat < 256 := lt_of_le_of_lt hc.2 (by decide)
  simpa using Nat.mod_eq_of_lt hlt

theorem isDigit_of_mem_printNat {n : Nat} {b : UInt8} (h : b ∈ printNat n) : isDigit b = true := by
  obtain ⟨c, hc, rfl⟩ := List.mem_map.mp h
  have hdigit := Nat.isDigit_of_mem_toDigits (by decide) (by decide) hc
  simpa [isDigit, toNat_ofNat_of_isDigit hdigit] using Char.isDigit_iff_toNat.mp hdigit

/-- What was printed has the value that was printed. -/
theorem value_printNat (n : Nat) : value (printNat n) = n := by
  have hfold : ∀ (cs : List Char) (m : Nat), (∀ c ∈ cs, c.isDigit = true) →
      (ascii cs).foldl (fun n b => 10 * n + (b.toNat - 48)) m = Nat.ofDigitChars 10 cs m := by
    intro cs
    induction cs with
    | nil => exact fun _ _ => rfl
    | cons c cs ih =>
      intro m hall
      have hcs := List.forall_mem_cons.mp hall
      rw [Nat.ofDigitChars_cons, ← ih _ hcs.2]
      simp only [ascii, List.map_cons, List.foldl_cons, toNat_ofNat_of_isDigit hcs.1]
      rfl
  rw [value, printNat, hfold _ _ fun c hc => Nat.isDigit_of_mem_toDigits (by decide) (by decide) hc]
  exact Nat.ofDigitChars_ten_toDigits

theorem length_printNat_le_iff {n k : Nat} (hk : 0 < k) :
    (printNat n).length ≤ k ↔ n < Nat.pow 10 k := by
  rw [printNat, ascii, List.length_map]
  exact Nat.length_toDigits_le_iff (by decide) hk

/-- A number of 32 bits has at most ten digits. -/
theorem length_printNat_le {n : Nat} (h : n ≤ 4294967295) : (printNat n).length ≤ 10 :=
  (length_printNat_le_iff (by decide)).mpr (Nat.lt_of_le_of_lt h (by decide))

/-- An `int` has at most ten digits and a sign. -/
theorem length_printInt_le {v : Int} (hlow : -2147483648 ≤ v) (hup : v ≤ 2147483647) :
    (printInt v).length ≤ 11 := by
  cases v with
  | ofNat n =>
    have hn : (n : Int) ≤ 2147483647 := hup
    have hlen := length_printNat_le (n := n) (by omega)
    simp only [printInt]
    omega
  | negSucc n =>
    have hlen := length_printNat_le (n := n + 1) (by omega)
    simp only [printInt, List.length_cons]
    omega

theorem printNat_injective : Function.Injective printNat := fun n m h => by
  rw [← value_printNat n, h, value_printNat]

/-- What was printed tells the number. -/
theorem printInt_injective : Function.Injective printInt := by
  intro u v h
  have hsign : ∀ n m, printNat n ≠ 45 :: printNat m := fun n m h => by
    have hmem : (45 : UInt8) ∈ printNat n := h ▸ List.mem_cons_self
    exact absurd (isDigit_of_mem_printNat hmem) (by decide)
  cases u with
  | ofNat n =>
    cases v with
    | ofNat m => rw [printNat_injective h]
    | negSucc m => exact absurd h (hsign n _)
  | negSucc n =>
    cases v with
    | ofNat m => exact absurd h.symm (hsign m _)
    | negSucc m => rw [Nat.succ.inj (printNat_injective (List.cons.inj h).2)]

/-- No number is printed with a NUL byte. -/
theorem zero_not_mem_printInt {v : Int} : 0 ∉ printInt v := by
  have hdigits : ∀ n, 0 ∉ printNat n := fun n h => absurd (isDigit_of_mem_printNat h) (by decide)
  cases v with
  | ofNat n => exact hdigits n
  | negSucc n => simpa [printInt] using hdigits (n + 1)

/-- The run of digits at the start of a list, and what follows it. -/
theorem takeWhile_digits {digits rest : List UInt8} (h : ∀ b ∈ digits, isDigit b = true)
    (hrest : ∀ b ∈ rest.head?, isDigit b = false) :
    (digits ++ rest).takeWhile isDigit = digits ∧ (digits ++ rest).dropWhile isDigit = rest := by
  have hnone : rest.takeWhile isDigit = [] ∧ rest.dropWhile isDigit = rest := by
    cases rest with
    | nil => exact ⟨rfl, rfl⟩
    | cons b rest =>
      have hb : isDigit b = false := hrest b rfl
      simp [hb]
  rw [List.takeWhile_append_of_pos h, List.dropWhile_append_of_pos h]
  simp [hnone]

end OsCourseLabs.Decimal
