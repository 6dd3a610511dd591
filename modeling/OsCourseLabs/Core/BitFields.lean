import Mathlib.Tactic.Common

/-!
# Bit fields of a register

A read-modify-write under a mask takes the bits of the mask from a value and keeps the
others. A field is a range of bits. Putting a value into a field and getting it back
satisfy the laws of a lens, and fields that share no bit do not see each other.
-/

namespace OsCourseLabs.BitFields

variable {w : Nat}

/-- Read, modify, write: the bits of the mask come from the value. -/
def updateBits (mask val old : BitVec w) : BitVec w := (old &&& ~~~mask) ||| (val &&& mask)

/-- A range of bits of a register. -/
structure Field (w : Nat) where
  offset : Nat
  width : Nat
  fits : offset + width ≤ w

/-- The bits of the field, in their place. -/
def Field.mask (f : Field w) : BitVec w := (BitVec.allOnes f.width).setWidth w <<< f.offset

/-- What the register holds in the field. -/
def Field.get (f : Field w) (r : BitVec w) : BitVec f.width := r.extractLsb' f.offset f.width

/-- The register with a value, moved to its place, in the field. -/
def Field.put (f : Field w) (v r : BitVec w) : BitVec w := updateBits f.mask (v <<< f.offset) r

/-- The two fields share no bit. -/
def Field.Apart (f g : Field w) : Prop :=
  f.offset + f.width ≤ g.offset ∨ g.offset + g.width ≤ f.offset

instance (f g : Field w) : Decidable (f.Apart g) := inferInstanceAs (Decidable (_ ∨ _))

theorem getElem_updateBits (mask val old : BitVec w) {i : Nat} (hi : i < w) :
    (updateBits mask val old)[i] = if mask[i] then val[i] else old[i] := by
  simp only [updateBits, BitVec.getElem_or, BitVec.getElem_and, BitVec.getElem_not]
  cases mask[i] <;> simp

theorem Field.getElem_mask (f : Field w) {i : Nat} (hi : i < w) :
    f.mask[i] = decide (f.offset ≤ i ∧ i < f.offset + f.width) := by
  by_cases hle : f.offset ≤ i
  · simp [mask, BitVec.getElem_shiftLeft, hle, Nat.not_lt.mpr hle]
    omega
  · simp [mask, BitVec.getElem_shiftLeft, hle, Nat.lt_of_not_le hle]

theorem Field.getElem_get (f : Field w) (r : BitVec w) {i : Nat} (hi : i < f.width) :
    (f.get r)[i] = r.getLsbD (f.offset + i) := by
  simp only [get, BitVec.getElem_extractLsb']

/-- An update under a mask that misses the field does not change it. -/
theorem Field.get_updateBits_of_apart {f g : Field w} (h : f.Apart g) (val r : BitVec w) :
    g.get (updateBits f.mask val r) = g.get r := by
  ext i hi
  have hfit := g.fits
  have hlt : g.offset + i < w := by omega
  have hout : ¬ (f.offset ≤ g.offset + i ∧ g.offset + i < f.offset + f.width) := by
    rcases h with h | h <;> omega
  rw [getElem_get _ _ hi, getElem_get _ _ hi, BitVec.getLsbD_eq_getElem hlt,
    BitVec.getLsbD_eq_getElem hlt, getElem_updateBits _ _ _ hlt, getElem_mask _ hlt]
  simp [hout]

/-- A field holds the low bits of what was last put into it. -/
theorem Field.get_put (f : Field w) (v r : BitVec w) : f.get (f.put v r) = v.setWidth f.width := by
  ext i hi
  have hfit := f.fits
  have hlt : f.offset + i < w := by omega
  have hv : i < w := by omega
  rw [getElem_get _ _ hi, BitVec.getLsbD_eq_getElem hlt, put, getElem_updateBits _ _ _ hlt,
    getElem_mask _ hlt, BitVec.getElem_setWidth, BitVec.getLsbD_eq_getElem hv]
  simp [BitVec.getElem_shiftLeft, hi]

/-- To put back what a field holds changes nothing. -/
theorem Field.put_get {f : Field w} {v r : BitVec w} (h : v.setWidth f.width = f.get r) :
    f.put v r = r := by
  have hfit := f.fits
  ext i hi
  rw [put, getElem_updateBits _ _ _ hi, getElem_mask _ hi]
  by_cases hin : f.offset ≤ i ∧ i < f.offset + f.width
  · have hj : i - f.offset < f.width := by omega
    have hw : i - f.offset < w := by omega
    have hbit : v[i - f.offset] = r[i] := by
      have he := congrArg (fun x => x[i - f.offset]) h
      simp only [BitVec.getElem_setWidth, getElem_get _ _ hj] at he
      rw [BitVec.getLsbD_eq_getElem hw, Nat.add_sub_cancel' hin.1,
        BitVec.getLsbD_eq_getElem hi] at he
      exact he
    simp [hin, BitVec.getElem_shiftLeft, hbit, Nat.not_lt.mpr hin.1]
  · simp [hin]

theorem Field.get_put_of_apart {f g : Field w} (h : f.Apart g) (v r : BitVec w) :
    g.get (f.put v r) = g.get r :=
  get_updateBits_of_apart h _ r

/-- A register masked with the field at its low end shows the field. -/
theorem Field.toNat_and_mask {f : Field w} (h : f.offset = 0) (r : BitVec w) :
    (r &&& f.mask).toNat = (f.get r).toNat := by
  have hfit := f.fits
  have hw : f.width ≤ w := by omega
  have hset : r &&& f.mask = (f.get r).setWidth w := by
    ext i hi
    rw [BitVec.getElem_and, getElem_mask _ hi, BitVec.getElem_setWidth]
    by_cases hlt : i < f.width
    · rw [BitVec.getLsbD_eq_getElem hlt, getElem_get _ _ hlt]
      simp [h, hlt, hi]
    · rw [BitVec.getLsbD_of_ge _ _ (Nat.le_of_not_lt hlt)]
      simp [h, hlt]
  rw [hset, BitVec.toNat_setWidth_of_le hw]

/-- A register shifted down to the field at its high end shows the field. -/
theorem Field.toNat_shiftRight_last {f : Field w} (hlast : f.offset + f.width = w) (r : BitVec w) :
    (r >>> f.offset).toNat = (f.get r).toNat := by
  have hw : 2 ^ w = 2 ^ f.offset * 2 ^ f.width := by rw [← Nat.pow_add, hlast]
  have hlt : r.toNat / 2 ^ f.offset < 2 ^ f.width := Nat.div_lt_of_lt_mul (hw ▸ r.isLt)
  rw [get, BitVec.extractLsb'_toNat, BitVec.toNat_ushiftRight, Nat.shiftRight_eq_div_pow,
    Nat.mod_eq_of_lt hlt]

/-- A register shifted down to a field shows the field and, above it, the field that follows. -/
theorem Field.toNat_shiftRight {f g : Field w} (hnext : g.offset = f.offset + f.width)
    (hlast : g.offset + g.width = w) (r : BitVec w) :
    (r >>> f.offset).toNat = (f.get r).toNat + (g.get r).toNat <<< f.width := by
  rw [← toNat_shiftRight_last hlast, hnext]
  simp only [get, BitVec.extractLsb'_toNat, BitVec.toNat_ushiftRight, Nat.shiftRight_eq_div_pow,
    Nat.shiftLeft_eq, Nat.pow_add, ← Nat.div_div_eq_div_mul]
  exact (Nat.mod_add_div' _ _).symm

end OsCourseLabs.BitFields
