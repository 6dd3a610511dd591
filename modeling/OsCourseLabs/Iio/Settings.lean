import OsCourseLabs.Core.LastWrite
import OsCourseLabs.Iio.Hmc5843

/-!
# The settings of an HMC5843

The measurement configuration, the output rate, the gain and the mode are four bit fields in
three registers. Whatever calls a bound driver serves, each setting keeps the last value
written to it, and no call touches a bit that belongs to no setting.
-/

namespace OsCourseLabs.Iio.Hmc5843

open BitFields

/-- What a user or the power management can set. -/
inductive Setting where
  | measConf
  | rate
  | gain
  | mode
  deriving DecidableEq, Repr

/-- The register that a setting is in. -/
def Setting.reg : Setting → BitVec 8
  | .measConf => HMC5843_CONFIG_REG_A
  | .rate => HMC5843_CONFIG_REG_A
  | .gain => HMC5843_CONFIG_REG_B
  | .mode => HMC5843_MODE_REG

/-- The bits of the register that a setting takes. -/
def Setting.field : Setting → Field 8
  | .measConf => ⟨0, 2, by decide⟩
  | .rate => ⟨2, 3, by decide⟩
  | .gain => ⟨5, 3, by decide⟩
  | .mode => ⟨0, 2, by decide⟩

/-- The bits of register A above the output rate, which belong to no setting. -/
def aboveRate : Field 8 := ⟨5, 3, by decide⟩

/-- What the chip is set to. -/
def Setting.get (s : Setting) (regmap : Registers) : BitVec s.field.width :=
  s.field.get (regmap s.reg)

/-- One update of the field of a setting. -/
def Setting.put (s : Setting) (bus : Bus) (v : BitVec 8) (data : Hmc5843Data) :
    Int × Hmc5843Data :=
  updateLocked bus s.reg s.field.mask (v <<< s.field.offset) data

/-- The bits of a register that belong to a setting. -/
def settingBits (reg : BitVec 8) : BitVec 8 :=
  if reg = HMC5843_CONFIG_REG_A then 0x1f
  else if reg = HMC5843_CONFIG_REG_B then 0xe0
  else if reg = HMC5843_MODE_REG then 0x03
  else 0x00

/-- Two settings share no bit: they lie in different registers or in fields apart. -/
theorem Setting.apart {s s' : Setting} (h : s ≠ s') (hreg : s'.reg = s.reg) :
    s.field.Apart s'.field := by
  cases s <;> cases s' <;> first | exact absurd rfl h | (revert hreg; decide)

/-- A setting lies within the bits that the driver writes in its register. -/
theorem Setting.mask_settingBits (s : Setting) : s.field.mask &&& ~~~settingBits s.reg = 0 := by
  cases s <;> decide

/-- The setter of the mode puts the setting. -/
theorem hmc5843SetMode_eq (bus : Bus) (v : BitVec 8) (data : Hmc5843Data) :
    hmc5843SetMode bus v data = Setting.mode.put bus v data :=
  congrArg (updateLocked bus _ _ · data) (BitVec.shiftLeft_zero v).symm

/-- The setter of the measurement configuration puts the setting. -/
theorem hmc5843SetMeasConf_eq (bus : Bus) (v : BitVec 8) (data : Hmc5843Data) :
    hmc5843SetMeasConf bus v data = Setting.measConf.put bus v data :=
  congrArg (updateLocked bus _ _ · data) (BitVec.shiftLeft_zero v).symm

/-- The setter of the rate puts the setting. -/
theorem hmc5843SetSampFreq_eq (bus : Bus) (v : BitVec 8) (data : Hmc5843Data) :
    hmc5843SetSampFreq bus v data = Setting.rate.put bus v data := rfl

/-- The setter of the gain puts the setting. -/
theorem hmc5843SetRangeGain_eq (bus : Bus) (v : BitVec 8) (data : Hmc5843Data) :
    hmc5843SetRangeGain bus v data = Setting.gain.put bus v data := rfl

/-- Putting a setting answers what the bus does. -/
@[simp] theorem Setting.put_ret (s : Setting) (bus : Bus) (v : BitVec 8) (data : Hmc5843Data) :
    (s.put bus v data).1 = bus.ret := rfl

/-- Putting a setting changes its field of its register, if the bus carries it. -/
theorem Setting.put_regmap (s : Setting) (bus : Bus) (v : BitVec 8) (data : Hmc5843Data)
    (reg : BitVec 8) : (s.put bus v data).2.regmap reg =
      if bus.carries ∧ reg = s.reg then s.field.put v (data.regmap reg) else data.regmap reg := by
  simp only [put, updateLocked, regmapUpdateBits]
  by_cases hb : bus.carries = true
  · by_cases hr : reg = s.reg
    · subst hr
      simp [hb, Field.put]
    · simp [hb, hr]
  · simp [hb]

/-- An update that gets through sets the field to the low bits of the value. -/
theorem Setting.get_put (s : Setting) (bus : Bus) (v : BitVec 8) (data : Hmc5843Data) :
    s.get (s.put bus v data).2.regmap =
      if bus.carries then v.setWidth s.field.width else s.get data.regmap := by
  rw [get, put_regmap]
  by_cases hb : bus.carries = true
  · simp [hb, Field.get_put]
  · simp [hb, get]

/-- No setting is changed by putting another one. -/
theorem Setting.get_put_of_ne {s s' : Setting} (h : s ≠ s') (bus : Bus) (v : BitVec 8)
    (data : Hmc5843Data) : s'.get (s.put bus v data).2.regmap = s'.get data.regmap := by
  rw [get, put_regmap]
  split
  · next hb => exact Field.get_put_of_apart (apart h hb.2) _ _
  · rfl

/-- An update changes only bits of its setting. -/
theorem Setting.put_untouched (s : Setting) (bus : Bus) (v : BitVec 8) (data : Hmc5843Data)
    (reg : BitVec 8) : (s.put bus v data).2.regmap reg &&& ~~~settingBits reg =
      data.regmap reg &&& ~~~settingBits reg := by
  rw [put_regmap]
  split
  · next hb =>
    rw [hb.2]
    have hmask := s.mask_settingBits
    ext i hi
    have hbit : (s.field.mask)[i] = true → (~~~settingBits s.reg)[i] = false := fun hm => by
      have hz := congrArg (fun x => x[i]) hmask
      simpa [hm] using hz
    simp only [BitVec.getElem_and, Field.put, getElem_updateBits _ _ _ hi]
    cases hm : (s.field.mask)[i] with
    | false => simp
    | true => simp [hbit hm]
  · rfl

/-- A call that a bound driver serves and that may change the chip. -/
inductive Call where
  | writeRaw (bus : Bus) (val val2 : Int) (mask : ChanInfo)
  | setMeasurementConfiguration (bus : Bus) (measConf : BitVec 32)
  | suspend (bus : Bus)
  | resume (bus : Bus)
  deriving DecidableEq, Repr

/-- The function of the driver that a call runs. -/
def Call.serve (data : Hmc5843Data) : Call → Int × Hmc5843Data
  | .writeRaw bus val val2 mask => hmc5843WriteRaw bus val val2 mask data
  | .setMeasurementConfiguration bus measConf =>
    hmc5843SetMeasurementConfiguration bus measConf data
  | .suspend bus => hmc5843CommonSuspend bus data
  | .resume bus => hmc5843CommonResume bus data

/-- The driver after a sequence of calls. -/
def Hmc5843Data.run (data : Hmc5843Data) (calls : List Call) : Hmc5843Data :=
  calls.foldl (fun data c => (c.serve data).2) data

/-- The setting that a call sets when it gets through, and the value: an attribute counts from
the position of its text in the table. -/
def Call.target (id : Ids) : Call → Option (Setting × BitVec 8)
  | .writeRaw _ val val2 .sampFreq =>
    ((hmc5843ChipInfoTbl id).regvalToSampFreq.idxOf? (val, val2)).map fun i =>
      (.rate, BitVec.ofNat 8 i)
  | .writeRaw _ val val2 .scale =>
    if val = 0 then
      ((hmc5843ChipInfoTbl id).regvalToNanoscale.idxOf? val2).map fun i => (.gain, BitVec.ofNat 8 i)
    else none
  | .writeRaw _ _ _ _ => none
  | .setMeasurementConfiguration _ measConf => some (.measConf, measConf.setWidth 8)
  | .suspend _ => some (.mode, HMC5843_MODE_SLEEP)
  | .resume _ => some (.mode, HMC5843_MODE_CONVERSION_CONTINUOUS)

/-- How the one access of a call to the bus goes. -/
def Call.bus : Call → Bus
  | .writeRaw bus _ _ _ => bus
  | .setMeasurementConfiguration bus _ => bus
  | .suspend bus => bus
  | .resume bus => bus

/-- The search for a frequency is the search for the pair in the table. -/
theorem hmc5843GetSampFreqIndex_eq (data : Hmc5843Data) (val val2 : Int) :
    hmc5843GetSampFreqIndex data val val2 =
      match data.variant.regvalToSampFreq.idxOf? (val, val2) with
      | some i => (i : Int)
      | none => -EINVAL := by
  have hp : (fun entry : Int × Int => decide (val = entry.1 ∧ val2 = entry.2)) =
      (· == (val, val2)) := by
    funext entry
    rw [Bool.eq_iff_iff, decide_eq_true_eq, beq_iff_eq, Prod.ext_iff]
    exact and_congr eq_comm eq_comm
  rw [hmc5843GetSampFreqIndex, hp]
  rfl

/-- The search for a scale is the search for the entry in the table. -/
theorem hmc5843GetScaleIndex_eq (data : Hmc5843Data) (val2 : Int) :
    hmc5843GetScaleIndex data 0 val2 =
      match data.variant.regvalToNanoscale.idxOf? val2 with
      | some i => (i : Int)
      | none => -EINVAL := by
  have hp : (fun entry : Int => decide (val2 = entry)) = (· == val2) := by
    funext entry
    rw [Bool.eq_iff_iff, decide_eq_true_eq, beq_iff_eq]
    exact eq_comm
  simp only [hmc5843GetScaleIndex, ne_eq, not_true_eq_false, ite_false, hp]
  rfl

/-- What a call does: nothing, answering that its argument is invalid, or one update. -/
theorem Call.serve_eq (data : Hmc5843Data) (c : Call) :
    c.serve data = match c.target data.id with
      | some (s, v) => s.put c.bus v data
      | none => (-EINVAL, data) := by
  cases c with
  | writeRaw bus val val2 mask =>
    cases mask with
    | sampFreq =>
      simp only [serve, hmc5843WriteRaw, hmc5843GetSampFreqIndex_eq, target, Hmc5843Data.variant]
      cases ((hmc5843ChipInfoTbl data.id).regvalToSampFreq.idxOf? (val, val2)) with
      | none => rfl
      | some i => simp [hmc5843SetSampFreq_eq, Call.bus, Int.not_lt.mpr (Int.natCast_nonneg i)]
    | scale =>
      by_cases hval : val = 0
      · subst hval
        simp only [serve, hmc5843WriteRaw, hmc5843GetScaleIndex_eq, target, Hmc5843Data.variant,
          ite_true]
        cases ((hmc5843ChipInfoTbl data.id).regvalToNanoscale.idxOf? val2) with
        | none => rfl
        | some i => simp [hmc5843SetRangeGain_eq, Call.bus, Int.not_lt.mpr (Int.natCast_nonneg i)]
      · simp [serve, hmc5843WriteRaw, hmc5843GetScaleIndex, target, hval, EINVAL]
    | _ => rfl
  | setMeasurementConfiguration bus measConf => exact hmc5843SetMeasConf_eq _ _ _
  | suspend bus => exact hmc5843SetMode_eq _ _ _
  | resume bus => exact hmc5843SetMode_eq _ _ _

/-- The value that a call writes to a setting. -/
def Call.writes (id : Ids) (s : Setting) (c : Call) : Option (BitVec s.field.width) :=
  match c.target id with
  | some (s', v) => if s' = s ∧ c.bus.carries then some (v.setWidth s.field.width) else none
  | none => none

/-- No call makes the chip another variant. -/
@[simp] theorem Call.serve_id (data : Hmc5843Data) (c : Call) : (c.serve data).2.id = data.id := by
  rw [serve_eq]
  cases c.target data.id <;> rfl

/-- No run of calls makes the chip another variant. -/
@[simp] theorem Hmc5843Data.run_id (data : Hmc5843Data) (calls : List Call) :
    (data.run calls).id = data.id := by
  induction calls using List.reverseRecOn with
  | nil => rfl
  | append_singleton calls c ih => rw [run, List.foldl_append, ← ih]; exact Call.serve_id _ c

/-- One call treats every setting as a cell. -/
theorem Call.serve_get (data : Hmc5843Data) (c : Call) (s : Setting) :
    s.get (c.serve data).2.regmap = (c.writes data.id s).getD (s.get data.regmap) := by
  rw [serve_eq, writes]
  cases c.target data.id with
  | none => rfl
  | some t =>
    obtain ⟨s', v⟩ := t
    by_cases hs : s' = s
    · subst hs
      simp only [Setting.get_put, true_and]
      split <;> rfl
    · simp [hs, Setting.get_put_of_ne hs]

/-- One call touches no bit that belongs to no setting. -/
theorem Call.serve_untouched (data : Hmc5843Data) (c : Call) (reg : BitVec 8) :
    (c.serve data).2.regmap reg &&& ~~~settingBits reg =
      data.regmap reg &&& ~~~settingBits reg := by
  rw [serve_eq]
  cases c.target data.id with
  | none => rfl
  | some t => exact Setting.put_untouched _ _ _ _ _

/-- What a run of calls leaves in a setting is the last value written to it. -/
theorem Hmc5843Data.run_get (data : Hmc5843Data) (calls : List Call) (s : Setting) :
    s.get (data.run calls).regmap =
      lastWrite (Call.writes data.id s) (s.get data.regmap) calls :=
  foldl_eq_lastWrite_of_invariant (r := fun u : Hmc5843Data => s.get u.regmap)
    (I := fun u => u.id = data.id) rfl (fun u c hu => (Call.serve_id u c).trans hu)
    (fun u c hu => hu ▸ Call.serve_get u c s) calls

/-- Every setting keeps the last value written to it, whatever the other calls are, and all
other bits of the chip stay as they were. -/
theorem hmc5843_settings_last_write (data : Hmc5843Data) (calls : List Call) :
    (∀ s : Setting, s.get (data.run calls).regmap =
      lastWrite (Call.writes data.id s) (s.get data.regmap) calls) ∧
    ∀ reg, (data.run calls).regmap reg &&& ~~~settingBits reg =
      data.regmap reg &&& ~~~settingBits reg := by
  refine ⟨data.run_get calls, fun reg => ?_⟩
  induction calls using List.reverseRecOn with
  | nil => rfl
  | append_singleton calls c ih =>
    rw [← ih, Hmc5843Data.run, List.foldl_append]
    exact Call.serve_untouched _ c reg

end OsCourseLabs.Iio.Hmc5843
