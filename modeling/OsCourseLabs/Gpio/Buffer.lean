import OsCourseLabs.Gpio.Command

/-!
# The bounds of the command buffer

`gpio_lkm_write` computes its copy length in `size_t` and keeps it in an `unsigned int`.
Copy, terminator and comparisons stay inside the kernel buffer for every count but zero,
where the length wraps around.
-/

namespace OsCourseLabs.Gpio

open CString

/-- `len` for a `size_t` of `w` bits: the difference is taken in `size_t` and then narrowed. -/
def lenOf (w : Nat) (count : BitVec w) : BitVec 32 :=
  if count.toNat < BUF_SIZE then (count - 1#w).setWidth 32 else BitVec.ofNat 32 (BUF_SIZE - 1)

/-- `kbuf` after the copy and the terminator, over what was on the stack before. -/
def kernelBuffer (stale copied : List UInt8) (len : Nat) : List UInt8 :=
  (copied ++ stale.drop len).set len 0

/-- What a write does with `kbuf` stays inside it, and the comparisons inside what it wrote. -/
structure WithinBuffer (count len : Nat) : Prop where
  fits : len ≤ BUF_SIZE
  asked : len ≤ count
  terminator : len < BUF_SIZE
  compared : ∀ stale copied : List UInt8, stale.length = BUF_SIZE → copied.length = len →
    ∀ c ∈ commands, strcmpReads (kernelBuffer stale copied len) c.2 ≤ len + 1

/-- At every width of `size_t` the length is the one the driver model computes with. -/
theorem lenOf_toNat {w : Nat} (hw : 32 ≤ w) (count : BitVec w) :
    (lenOf w count).toNat = copyLen count.toNat := by
  have hone : (1#w).toNat = 1 := BitVec.toNat_one (by omega)
  have hdvd : 2 ^ 32 ∣ 2 ^ w := Nat.pow_dvd_pow 2 hw
  obtain ⟨e, he⟩ := hdvd
  have hpos : 0 < 2 ^ w := Nat.two_pow_pos w
  unfold lenOf copyLen
  split
  · rw [BitVec.toNat_setWidth, BitVec.toNat_sub, hone, Nat.mod_mod_of_dvd _ (Nat.pow_dvd_pow 2 hw),
      UInt32.toNat_sub, UInt32.toNat_ofNat']
    simp only [UInt32.reduceToNat]
    omega
  · rfl

/-- The terminated buffer holds the copied bytes and a NUL; the rest is as it was. -/
theorem kernelBuffer_eq {stale copied : List UInt8} {len : Nat} (hc : copied.length = len)
    (hs : len < stale.length) :
    kernelBuffer stale copied len = copied ++ 0 :: stale.drop (len + 1) := by
  rw [kernelBuffer, List.set_append_right _ _ (by omega), hc, Nat.sub_self,
    List.drop_eq_getElem_cons hs, List.set_cons_zero]

/-- What was on the stack does not change the command that is decoded. -/
theorem whichCommand_kernelBuffer {stale copied : List UInt8} {len : Nat}
    (hc : copied.length = len) (hs : len < stale.length) :
    whichCommand (kernelBuffer stale copied len) = whichCommand (copied ++ [0]) := by
  rw [kernelBuffer_eq hc hs, whichCommand_eq, whichCommand_eq, cstr_append_zero, cstr_append_zero]

/-- A write stays inside the kernel buffer exactly when its count is not zero. -/
theorem gpioLkmWrite_withinBuffer_iff {w : Nat} (hw : 32 ≤ w) (count : BitVec w) :
    WithinBuffer count.toNat (lenOf w count).toNat ↔ count ≠ 0 := by
  rw [lenOf_toNat hw]
  constructor
  · rintro h rfl
    have hasked := h.asked
    rw [BitVec.ofNat_eq_ofNat, BitVec.toNat_zero] at hasked
    exact absurd hasked (by decide)
  · intro hne
    have hpos : 1 ≤ count.toNat := by
      have hn : count.toNat ≠ 0 := fun h => hne (BitVec.eq_of_toNat_eq (by simpa using h))
      omega
    have hlen := copyLen_eq hpos
    constructor
    case fits => simp only [BUF_SIZE]; omega
    case asked => omega
    case terminator => simp only [BUF_SIZE]; omega
    case compared =>
      intro stale copied hs hc c _
      rw [kernelBuffer_eq hc (by rw [hs, BUF_SIZE]; omega), ← hc]
      exact strcmpReads_le copied c.2 _

/-- The theorem applies to a write of four bytes where `size_t` has 64 bits. -/
theorem gpioLkmWrite_withinBuffer_iff_four :
    WithinBuffer (4#64).toNat (lenOf 64 4#64).toNat :=
  (gpioLkmWrite_withinBuffer_iff (by decide) 4#64).mpr (by decide)

/-- A write of no bytes asks for the whole range of the length. -/
theorem empty_write_overruns :
    (lenOf 64 0#64).toNat = 4294967295 ∧ ¬ WithinBuffer (0#64).toNat (lenOf 64 0#64).toNat :=
  ⟨by decide, fun h => absurd h.asked (by decide)⟩

end OsCourseLabs.Gpio
