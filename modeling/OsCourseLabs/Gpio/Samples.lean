import OsCourseLabs.Gpio.Driver
import Mathlib.Data.List.Range

/-!
# What a read reports

`gpio_lkm_read` samples the pin once for each byte and adds the answer of the GPIO core to
the character `0`, whatever the answer is. A fault on the first byte ends the loop with
the count it has reached, which is zero.
-/

namespace OsCourseLabs.Gpio

/-- Each byte stored is the character of its sample, the result counts the bytes, and a read
that wanted bytes and stored none is an error. -/
structure ReportsSamples (sample : Nat → Int) (count : Nat) (r : Int) (stored : List UInt8) :
    Prop where
  bytes : ∀ j b, stored[j]? = some b → sample j = 0 ∧ b = 48 ∨ sample j = 1 ∧ b = 49
  within : stored.length ≤ count
  result : 0 < stored.length → r = stored.length
  error : 0 < count → stored = [] → r < 0

/-- The loop stores a byte for every sample up to the fault, and counts them. -/
theorem readLoop_eq (gpio : Nat) (sample : Nat → Int) (room n retval : Nat)
    (stored : List UInt8) (k : Kernel) :
    (readLoop gpio sample room n retval stored k).1 =
      (retval + min n (room - retval), stored ++
        (List.range' retval (min n (room - retval))).map fun j => UInt8.ofInt (48 + sample j)) := by
  induction n generalizing retval stored k with
  | zero => simp [readLoop]
  | succ n ih =>
    rw [readLoop]
    split
    · rename_i hroom
      rw [Nat.sub_eq_zero_of_le hroom]
      simp
    · rename_i hroom
      have hmin : min (n + 1) (room - retval) = min n (room - (retval + 1)) + 1 := by omega
      rw [ih, hmin, List.range'_succ]
      simp only [List.map_cons, List.append_assoc, List.singleton_append, Prod.mk.injEq, and_true]
      omega

/-- A read stores and counts the bytes wanted that come before the fault. -/
theorem gpioLkmRead_eq (f : File) (sample : Nat → Int) (room count : Nat) (k : Kernel) :
    (gpioLkmRead f sample room count k).1 =
      (min count room, (List.range (min count room)).map fun j => UInt8.ofInt (48 + sample j)) := by
  rw [gpioLkmRead, readLoop_eq, List.range_eq_range']
  simp

/-- A read reports its samples exactly when no byte was wanted, or the first byte could be
stored and no sample of a stored byte failed. -/
theorem gpioLkmRead_reportsSamples_iff (f : File) (sample : Nat → Int) (room count : Nat)
    (k : Kernel) :
    ReportsSamples sample count (gpioLkmRead f sample room count k).1.1
        (gpioLkmRead f sample room count k).1.2 ↔
      count = 0 ∨ 0 < room ∧ ∀ j < min count room, sample j = 0 ∨ sample j = 1 := by
  rw [gpioLkmRead_eq]
  constructor
  · intro h
    by_cases hc : count = 0
    · exact Or.inl hc
    refine Or.inr ⟨?_, fun j hj => ?_⟩
    · -- without room the result is the count zero of the bytes stored
      by_contra hroom
      have hz : min count room = 0 := by omega
      have herr := h.error (by omega) (by rw [hz]; rfl)
      omega
    · have hget : ((List.range (min count room)).map
          fun j => UInt8.ofInt (48 + sample j))[j]? = some (UInt8.ofInt (48 + sample j)) := by
        rw [List.getElem?_map, List.getElem?_range hj, Option.map_some]
      exact (h.bytes j _ hget).imp And.left And.left
  · intro h
    have hsamples : ∀ j < min count room, sample j = 0 ∨ sample j = 1 := by
      rcases h with rfl | h
      · intro j hj
        omega
      · exact h.2
    constructor
    case bytes =>
      intro j b hb
      rw [List.getElem?_map, Option.map_eq_some_iff] at hb
      obtain ⟨i, hi, rfl⟩ := hb
      obtain ⟨hlt, rfl⟩ := List.getElem?_eq_some_iff.mp hi
      rw [List.length_range] at hlt
      rw [List.getElem_range]
      rcases hsamples j hlt with hj | hj <;> simp only [hj]
      · exact Or.inl ⟨trivial, rfl⟩
      · exact Or.inr ⟨trivial, rfl⟩
    case within =>
      rw [List.length_map, List.length_range]
      exact Nat.min_le_left count room
    case result => simp
    case error =>
      intro hpos hnil
      rw [List.map_eq_nil_iff, List.range_eq_nil] at hnil
      omega

/-- A read of four bytes whose first byte faults answers the end of the file. -/
theorem faulting_read_not_reported :
    (∀ (f : File) (k : Kernel), (gpioLkmRead f (fun _ => 1) 0 4 k).1 = (0, [])) ∧
      ¬ ReportsSamples (fun _ => 1) 4 0 [] := by
  refine ⟨fun f k => ?_, fun h => absurd (h.error (by decide) rfl) (by decide)⟩
  rw [gpioLkmRead_eq]
  rfl

end OsCourseLabs.Gpio
