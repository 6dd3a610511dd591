import OsCourseLabs.Core.Decimal

/-!
# Comparing and scanning a bounded string

What a store function of sysfs does with the bytes it is handed: it compares them with a word
up to a number of bytes, or scans a number off their front. The comparison that stops early
takes a beginning of the word for the word, and the scan takes whatever follows the digits.
-/

namespace OsCourseLabs.CString

/-- The comparison loop with a bound; memory past the end of a list reads as NUL. -/
def strncmp (xs ys : List UInt8) : Nat → Int
  | 0 => 0
  | n + 1 =>
    match xs, ys with
    | [], [] => 0
    | [], y :: _ => if y = 0 then 0 else -1
    | x :: _, [] => if x = 0 then 0 else 1
    | x :: xs, y :: ys =>
      if x < y then -1
      else if y < x then 1
      else if x = 0 then 0
      else strncmp xs ys n

/-- The bound cuts both strings. -/
theorem strncmp_eq_strcmp_take (xs ys : List UInt8) (n : Nat) :
    strncmp xs ys n = strcmp (xs.take n) (ys.take n) := by
  induction n generalizing xs ys with
  | zero => simp [strncmp, strcmp]
  | succ n ih =>
    cases xs with
    | nil => cases ys <;> rfl
    | cons x xs =>
      cases ys with
      | nil => rfl
      | cons y ys =>
        rw [strncmp, List.take_succ_cons, List.take_succ_cons, strcmp, ih]

/-- Two lists of one length, the second without NUL, read as the same string only if they are
the same. -/
theorem eq_of_cstr_eq {xs ys : List UInt8} (hlen : ys.length = xs.length) (hys : 0 ∉ ys)
    (h : cstr xs = ys) : xs = ys := by
  rw [cstr_eq_iff fun x hx hz => hys (hz ▸ hx)] at h
  rcases h with h | ⟨rest, rfl⟩
  · exact h
  · simp at hlen

/-- Up to as many bytes as were handed over, they compare equal to a word if they are a
beginning of it, or the whole word up to a NUL. -/
theorem strncmp_length_eq_zero_iff {w : List UInt8} (hw : 0 ∉ w) (xs rest : List UInt8) :
    strncmp (xs ++ rest) w xs.length = 0 ↔ xs <+: w ∨ cstr xs = w := by
  rw [strncmp_eq_strcmp_take, strcmp_eq_zero_iff, List.take_left]
  rcases Nat.lt_or_ge w.length xs.length with hlt | hge
  · rw [List.take_of_length_le (by omega), cstr_of_not_mem hw]
    exact ⟨Or.inr, fun h => h.resolve_left fun hp => absurd hp.length_le (by omega)⟩
  · have htake : 0 ∉ w.take xs.length := fun h => hw (List.mem_of_mem_take h)
    rw [cstr_of_not_mem htake]
    constructor
    · intro h
      have heq := eq_of_cstr_eq (by simp; omega) htake h
      exact Or.inl (heq ▸ List.take_prefix _ _)
    · rintro (hp | hc)
      · have hxs := List.prefix_iff_eq_take.mp hp
        rw [← hxs] at htake ⊢
        exact cstr_of_not_mem htake
      · have hlen := length_cstr_le xs
        rw [hc] at hlen
        rw [List.take_of_length_le hlen, hc]

/-- `isspace` of the kernel. -/
def isspace (b : UInt8) : Bool := 9 ≤ b.toNat ∧ b.toNat ≤ 13 ∨ b.toNat = 32 ∨ b.toNat = 160

/-- `simple_strtoull` in base ten, on the digits it stops behind; it wraps around silently. -/
def simpleStrtoull (digits : List UInt8) : BitVec 64 := BitVec.ofNat 64 (Decimal.value digits)

/-- `sscanf` with `%d`: the value that is stored, if any is. -/
def scanInt (s : List UInt8) : Option (BitVec 32) :=
  let s := s.dropWhile isspace
  let negative := s.head? = some 45
  let digits := (if negative then s.tail else s).takeWhile Decimal.isDigit
  if digits = [] then none
  else
    let val := if negative then -simpleStrtoull digits else simpleStrtoull digits
    some (val.setWidth 32)

/-- A number that was printed is scanned with its value, whatever follows. -/
theorem scanInt_printNat {n : Nat} {rest : List UInt8}
    (hrest : ∀ b ∈ rest.head?, Decimal.isDigit b = false) :
    scanInt (Decimal.printNat n ++ rest) = some (BitVec.ofNat 32 n) := by
  obtain ⟨b, digits, hb⟩ := List.exists_cons_of_ne_nil (Decimal.printNat_ne_nil n)
  have hdigit : Decimal.isDigit b = true :=
    Decimal.isDigit_of_mem_printNat (hb ▸ List.mem_cons_self)
  have hspace : isspace b = false := by
    simp only [Decimal.isDigit, isspace, decide_eq_true_eq, decide_eq_false_iff_not] at hdigit ⊢
    omega
  have hdash : b ≠ 45 := by
    rintro rfl
    exact absurd hdigit (by decide)
  have hskip : (Decimal.printNat n ++ rest).dropWhile isspace = Decimal.printNat n ++ rest := by
    rw [hb, List.cons_append, List.dropWhile_cons_of_neg (by simp [hspace])]
  have hhead : (Decimal.printNat n ++ rest).head? ≠ some 45 := by simpa [hb] using hdash
  have htake : (Decimal.printNat n ++ rest).takeWhile Decimal.isDigit = Decimal.printNat n :=
    (Decimal.takeWhile_digits (fun _ => Decimal.isDigit_of_mem_printNat) hrest).1
  simp only [scanInt, hskip, hhead, ite_false, htake,
    if_neg (Decimal.printNat_ne_nil n), simpleStrtoull, Decimal.value_printNat]
  rw [BitVec.setWidth_ofNat_of_le (by decide)]

end OsCourseLabs.CString
