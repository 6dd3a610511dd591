import OsCourseLabs.Iio.Measurement
import OsCourseLabs.Iio.Settings

/-!
# Reading the settings of an HMC5843 back

A setting is read back through the tables of the variant. The driver shifts a register down
to a field without masking what lies above it. Above the gain there is nothing; above the
output rate there are three bits that the driver never writes.
-/

namespace OsCourseLabs.Iio.Hmc5843

open BitFields

/-- A chip that identifies itself, on a bus that never fails. -/
def InitOutcomes.smooth : InitOutcomes := ⟨.ok #v[0x48, 0x34, 0x33], .ok, .ok, .ok, .ok⟩

/-- The frequency of the output rate that `hmc5843_init` sets. -/
def defaultSampFreq : Ids → Int × Int
  | .hmc5843 => (10, 0)
  | _ => (15, 0)

/-- The scale of the gain that `hmc5843_init` sets. -/
def defaultScale : Ids → Int
  | .hmc5843 => 7692
  | .hmc5883 => 9766
  | _ => 9174

/-- The frequency that a call sets. -/
def Call.sampFreq (id : Ids) : Call → Option (Int × Int)
  | .writeRaw bus val val2 .sampFreq =>
    if bus.carries ∧ (hmc5843ChipInfoTbl id).regvalToSampFreq.contains (val, val2) then
      some (val, val2)
    else none
  | _ => none

/-- The scale that a call sets. -/
def Call.scale (id : Ids) : Call → Option Int
  | .writeRaw bus val val2 .scale =>
    if bus.carries ∧ val = 0 ∧ val2 ∈ (hmc5843ChipInfoTbl id).regvalToNanoscale then some val2
    else none
  | _ => none

/-- The measurement configuration that a call sets. -/
def Call.measConf : Call → Option Nat
  | .setMeasurementConfiguration bus measConf => if bus.carries then some measConf.toNat else none
  | _ => none

/-- The core passes a measurement configuration by its place among those of the variant. -/
def Call.Listed (id : Ids) : Call → Prop
  | .setMeasurementConfiguration _ measConf =>
    measConf.toNat < (hmc5843ChipInfoTbl id).measConfModes.length
  | _ => True

/-- Three bits are enough for the rates of every variant. -/
theorem length_regvalToSampFreq_le (id : Ids) :
    (hmc5843ChipInfoTbl id).regvalToSampFreq.length ≤ 8 := by cases id <;> decide

/-- Every value of the gain has a scale. -/
theorem length_regvalToNanoscale (id : Ids) :
    (hmc5843ChipInfoTbl id).regvalToNanoscale.length = 8 := by cases id <;> rfl

/-- Two bits are enough for the configurations of every variant. -/
theorem length_measConfModes_le (id : Ids) :
    (hmc5843ChipInfoTbl id).measConfModes.length ≤ 4 := by cases id <;> decide

/-- An access answers zero exactly if it goes well. -/
theorem Bus.ret_eq_zero_iff (bus : Bus) : bus.ret = 0 ↔ bus = .ok := by
  cases bus <;> simp [ret, errorCode]

/-- An access that fails answers a negative error. -/
theorem Bus.ret_neg_iff (bus : Bus) : bus.ret < 0 ↔ bus ≠ .ok := by
  cases bus <;> simp [ret, errorCode, Int.negSucc_lt_zero]

/-- A successful initialisation is the four updates of the settings to their defaults. -/
theorem hmc5843Init_eq_zero {o : InitOutcomes} {data : Hmc5843Data}
    (h : (hmc5843Init o data).1 = 0) :
    (hmc5843Init o data).2 = (Setting.mode.put .ok HMC5843_MODE_CONVERSION_CONTINUOUS
      (Setting.gain.put .ok HMC5843_RANGE_GAIN_DEFAULT
        (Setting.rate.put .ok HMC5843_RATE_DEFAULT
          (Setting.measConf.put .ok HMC5843_MEAS_CONF_NORMAL data).2).2).2).2 := by
  revert h
  unfold hmc5843Init
  split
  · simp [errorCode]
  · split
    · simp [ENODEV]
    · simp only [hmc5843SetMeasConf_eq, hmc5843SetSampFreq_eq, hmc5843SetRangeGain_eq,
        hmc5843SetMode_eq, Setting.put_ret, Bus.ret_neg_iff, ne_eq, ite_not]
      by_cases hconf : o.measConf = .ok
      · by_cases hrate : o.sampFreq = .ok
        · by_cases hgain : o.rangeGain = .ok
          · rw [if_pos hconf, if_pos hrate, if_pos hgain, hconf, hrate, hgain]
            intro hmode
            rw [(Bus.ret_eq_zero_iff _).mp hmode]
          · rw [if_pos hconf, if_pos hrate, if_neg hgain]
            exact fun hz => absurd ((Bus.ret_eq_zero_iff _).mp hz) hgain
        · rw [if_pos hconf, if_neg hrate]
          exact fun hz => absurd ((Bus.ret_eq_zero_iff _).mp hz) hrate
      · rw [if_neg hconf]
        exact fun hz => absurd ((Bus.ret_eq_zero_iff _).mp hz) hconf

/-- The settings after a successful initialisation are the defaults. -/
theorem hmc5843Init_get {o : InitOutcomes} {data : Hmc5843Data} (h : (hmc5843Init o data).1 = 0) :
    Setting.measConf.get (hmc5843Init o data).2.regmap = 0#2 ∧
      Setting.rate.get (hmc5843Init o data).2.regmap = 4#3 ∧
      Setting.gain.get (hmc5843Init o data).2.regmap = 1#3 ∧
      Setting.mode.get (hmc5843Init o data).2.regmap = 0#2 := by
  rw [hmc5843Init_eq_zero h]
  refine ⟨?_, ?_, ?_, Setting.get_put _ _ _ _⟩
  · rw [Setting.get_put_of_ne (by decide), Setting.get_put_of_ne (by decide),
      Setting.get_put_of_ne (by decide)]
    exact Setting.get_put _ _ _ _
  · rw [Setting.get_put_of_ne (by decide), Setting.get_put_of_ne (by decide)]
    exact Setting.get_put _ _ _ _
  · rw [Setting.get_put_of_ne (by decide)]
    exact Setting.get_put _ _ _ _

/-- The init does not make the chip another variant. -/
theorem hmc5843Init_id {o : InitOutcomes} {data : Hmc5843Data} (h : (hmc5843Init o data).1 = 0) :
    (hmc5843Init o data).2.id = data.id := by
  rw [hmc5843Init_eq_zero h]
  rfl

/-- No setting of the register reaches into the bits above the rate. -/
theorem Setting.apart_aboveRate (s : Setting) (h : s.reg = HMC5843_CONFIG_REG_A) :
    s.field.Apart aboveRate := by
  revert h
  cases s <;> decide

/-- No update of a setting changes the bits above the output rate. -/
theorem Setting.put_aboveRate (s : Setting) (bus : Bus) (v : BitVec 8) (data : Hmc5843Data) :
    aboveRate.get ((s.put bus v data).2.regmap HMC5843_CONFIG_REG_A) =
      aboveRate.get (data.regmap HMC5843_CONFIG_REG_A) := by
  rw [put_regmap]
  split
  · next hb => exact Field.get_put_of_apart (s.apart_aboveRate hb.2.symm) _ _
  · rfl

/-- No call changes the bits above the output rate. -/
theorem Call.serve_aboveRate (data : Hmc5843Data) (c : Call) :
    aboveRate.get ((c.serve data).2.regmap HMC5843_CONFIG_REG_A) =
      aboveRate.get (data.regmap HMC5843_CONFIG_REG_A) := by
  rw [serve_eq]
  cases c.target data.id with
  | none => rfl
  | some t => exact t.1.put_aboveRate _ _ _

/-- No run of calls changes the bits above the rate. -/
theorem Hmc5843Data.run_aboveRate (data : Hmc5843Data) (calls : List Call) :
    aboveRate.get ((data.run calls).regmap HMC5843_CONFIG_REG_A) =
      aboveRate.get (data.regmap HMC5843_CONFIG_REG_A) := by
  induction calls using List.reverseRecOn with
  | nil => rfl
  | append_singleton calls c ih =>
    rw [← ih, run, List.foldl_append]
    exact Call.serve_aboveRate _ c

/-- The init does not change the bits above the rate. -/
theorem hmc5843Init_aboveRate {o : InitOutcomes} {data : Hmc5843Data}
    (h : (hmc5843Init o data).1 = 0) :
    aboveRate.get ((hmc5843Init o data).2.regmap HMC5843_CONFIG_REG_A) =
      aboveRate.get (data.regmap HMC5843_CONFIG_REG_A) := by
  simp only [hmc5843Init_eq_zero h, Setting.put_aboveRate]

/-- A value found in a table is found again at the place that the field stores. -/
theorem getElem?_of_idxOf? {α : Type*} [BEq α] [LawfulBEq α] {table : List α}
    (hlen : table.length ≤ 8) {s : Setting} (hs : s.field.width = 3) {a : α} {i : Nat}
    (h : table.idxOf? a = some i) :
    table[((BitVec.ofNat 8 i).setWidth s.field.width).toNat]? = some a := by
  obtain ⟨hlt, ha, -⟩ := List.idxOf?_eq_some_iff.mp h
  have hi : ((BitVec.ofNat 8 i).setWidth s.field.width).toNat = i := by
    rw [BitVec.toNat_setWidth, BitVec.toNat_ofNat, hs]
    omega
  rw [hi, List.getElem?_eq_getElem hlt, ha]

/-- What is found in a table is in it. -/
theorem mem_of_idxOf? {α : Type*} [BEq α] [LawfulBEq α] {table : List α} {a : α} {i : Nat}
    (h : table.idxOf? a = some i) : a ∈ table := by
  obtain ⟨hlt, ha, -⟩ := List.idxOf?_eq_some_iff.mp h
  exact ha ▸ List.getElem_mem hlt

/-- What a call writes to the output rate stands for the frequency that it sets. -/
theorem Call.writes_rate (id : Ids) (c : Call) :
    ((c.writes id .rate).map fun r => (hmc5843ChipInfoTbl id).regvalToSampFreq[r.toNat]?) =
      (c.sampFreq id).map some := by
  cases c with
  | writeRaw bus val val2 mask =>
    cases mask with
    | sampFreq =>
      simp only [writes, target, sampFreq, Call.bus]
      cases hidx : (hmc5843ChipInfoTbl id).regvalToSampFreq.idxOf? (val, val2) with
      | none => simp [List.idxOf?_eq_none_iff.mp hidx]
      | some i =>
        have hget := getElem?_of_idxOf? (length_regvalToSampFreq_le id) (s := .rate) rfl hidx
        by_cases hb : bus.carries = true
        · simp only [hb, Option.map_some, List.contains_iff_mem.mpr (mem_of_idxOf? hidx),
            and_self, ite_true, hget]
        · simp [hb]
    | scale =>
      simp only [writes, target, sampFreq]
      by_cases hval : val = 0
      · rw [if_pos hval]
        cases (hmc5843ChipInfoTbl id).regvalToNanoscale.idxOf? val2 <;> simp
      · simp [hval]
    | _ => rfl
  | setMeasurementConfiguration bus measConf => simp [writes, target, sampFreq]
  | suspend bus => simp [writes, target, sampFreq]
  | resume bus => simp [writes, target, sampFreq]

/-- What a call writes to the gain stands for the scale that it sets. -/
theorem Call.writes_gain (id : Ids) (c : Call) :
    ((c.writes id .gain).map fun r => (hmc5843ChipInfoTbl id).regvalToNanoscale[r.toNat]?) =
      (c.scale id).map some := by
  cases c with
  | writeRaw bus val val2 mask =>
    cases mask with
    | scale =>
      simp only [writes, target, scale, Call.bus]
      by_cases hval : val = 0
      · cases hidx : (hmc5843ChipInfoTbl id).regvalToNanoscale.idxOf? val2 with
        | none => simp [hval, List.idxOf?_eq_none_iff.mp hidx]
        | some i =>
          have hlen := Nat.le_of_eq (length_regvalToNanoscale id)
          have hget := getElem?_of_idxOf? hlen (s := .gain) rfl hidx
          by_cases hb : bus.carries = true
          · simp only [hval, hb, Option.map_some, mem_of_idxOf? hidx, and_self, ite_true, hget]
          · simp [hval, hb]
      · simp [hval]
    | sampFreq =>
      simp only [writes, target, scale]
      cases (hmc5843ChipInfoTbl id).regvalToSampFreq.idxOf? (val, val2) <;> simp
    | _ => rfl
  | setMeasurementConfiguration bus measConf => simp [writes, target, scale]
  | suspend bus => simp [writes, target, scale]
  | resume bus => simp [writes, target, scale]

/-- The entry of the frequency table that the output rate stands for. -/
theorem rate_entry (data : Hmc5843Data) (calls : List Call)
    (hrate : (Setting.rate.get data.regmap).toNat = 4) :
    data.variant.regvalToSampFreq[(Setting.rate.get (data.run calls).regmap).toNat]? =
      some (lastWrite (Call.sampFreq data.id) (defaultSampFreq data.id) calls) := by
  have hdefault : data.variant.regvalToSampFreq[4]? = some (defaultSampFreq data.id) := by
    unfold Hmc5843Data.variant
    cases data.id <;> rfl
  rw [data.run_get, lastWrite_map
    (fun r : BitVec Setting.rate.field.width => data.variant.regvalToSampFreq[r.toNat]?),
    lastWrite_map (w := Call.sampFreq data.id) some, hrate, hdefault]
  exact lastWrite_congr fun c _ => c.writes_rate data.id

/-- The entry of the scale table that the gain stands for. -/
theorem gain_entry (data : Hmc5843Data) (calls : List Call)
    (hgain : (Setting.gain.get data.regmap).toNat = 1) :
    data.variant.regvalToNanoscale[(Setting.gain.get (data.run calls).regmap).toNat]? =
      some (lastWrite (Call.scale data.id) (defaultScale data.id) calls) := by
  have hdefault : data.variant.regvalToNanoscale[1]? = some (defaultScale data.id) := by
    unfold Hmc5843Data.variant
    cases data.id <;> rfl
  rw [data.run_get, lastWrite_map
    (fun r : BitVec Setting.gain.field.width => data.variant.regvalToNanoscale[r.toNat]?),
    lastWrite_map (w := Call.scale data.id) some, hgain, hdefault]
  exact lastWrite_congr fun c _ => c.writes_gain data.id

/-- The tables stay the same in a run. -/
theorem Hmc5843Data.run_variant (data : Hmc5843Data) (calls : List Call) :
    (data.run calls).variant = data.variant := by
  rw [variant, run_id, variant]

/-- The place in the frequency table that a read looks at: the output rate, and the bits above
it three places higher. -/
theorem readSampFreq_ok (data : Hmc5843Data) :
    readSampFreq .ok data =
      (data.variant.regvalToSampFreq[(Setting.rate.get data.regmap).toNat +
        (aboveRate.get (data.regmap HMC5843_CONFIG_REG_A)).toNat <<< 3]?).map fun entry =>
          .intPlusMicro entry.1 entry.2 := by
  have hshift := Field.toNat_shiftRight (f := Setting.rate.field) (g := aboveRate) rfl rfl
    (data.regmap HMC5843_CONFIG_REG_A)
  exact congrArg (fun n => (data.variant.regvalToSampFreq[n]?).map fun entry =>
    Answer.intPlusMicro entry.1 entry.2) hshift

/-- After the chip is set up, a read of the frequency answers the frequency last written, by
whatever calls, when the three bits above the output rate were clear before the driver came.
When they were not, every such read goes past the end of the table. -/
theorem hmc5843_frequency_read_back (o : InitOutcomes) (data : Hmc5843Data) (calls : List Call)
    (h : (hmc5843Init o data).1 = 0) :
    readSampFreq .ok ((hmc5843Init o data).2.run calls) =
      if aboveRate.get (data.regmap HMC5843_CONFIG_REG_A) = 0 then
        let freq := lastWrite (Call.sampFreq data.id) (defaultSampFreq data.id) calls
        some (.intPlusMicro freq.1 freq.2)
      else none := by
  have hrate : (Setting.rate.get (hmc5843Init o data).2.regmap).toNat = 4 :=
    congrArg BitVec.toNat (hmc5843Init_get h).2.1
  have hentry := rate_entry (hmc5843Init o data).2 calls hrate
  rw [hmc5843Init_id h] at hentry
  rw [readSampFreq_ok, Hmc5843Data.run_aboveRate, hmc5843Init_aboveRate h,
    Hmc5843Data.run_variant]
  by_cases habove : aboveRate.get (data.regmap HMC5843_CONFIG_REG_A) = 0
  · rw [if_pos habove, habove]
    have hzero : (0 : BitVec aboveRate.width).toNat <<< 3 = 0 := rfl
    rw [hzero, Nat.add_zero, hentry]
    rfl
  · have hpos : 0 < (aboveRate.get (data.regmap HMC5843_CONFIG_REG_A)).toNat :=
      Nat.pos_of_ne_zero fun hz => habove (BitVec.eq_of_toNat_eq hz)
    have hlen := length_regvalToSampFreq_le (hmc5843Init o data).2.id
    rw [if_neg habove, List.getElem?_eq_none, Option.map_none]
    rw [Nat.shiftLeft_eq]
    exact Nat.le_trans hlen (by omega)

/-- Thirty hertz, over a register whose upper bits were clear. -/
theorem hmc5843_frequency_read_back_thirty :
    readSampFreq .ok ((hmc5843Init .smooth ⟨.hmc5883l, fun _ => 0x10⟩).2.run
      [.writeRaw .ok 30 0 .sampFreq, .suspend .ok]) = some (.intPlusMicro 30 0) := by
  rw [hmc5843_frequency_read_back _ _ _ (by decide)]
  decide

/-- The scale read is the one of the gain in the register. -/
theorem readScale_ok (data : Hmc5843Data) :
    readScale .ok data =
      (data.variant.regvalToNanoscale[(Setting.gain.get data.regmap).toNat]?).map
        (.intPlusNano 0) := by
  have hshift := Field.toNat_shiftRight_last (f := Setting.gain.field) rfl
    (data.regmap HMC5843_CONFIG_REG_B)
  exact congrArg (fun n => (data.variant.regvalToNanoscale[n]?).map (Answer.intPlusNano 0)) hshift

/-- The configuration shown is the one in the register. -/
theorem hmc5843ShowMeasurementConfiguration_ok (data : Hmc5843Data) :
    hmc5843ShowMeasurementConfiguration .ok data =
      ((Setting.measConf.get data.regmap).toNat : Int) := by
  have hmask : Setting.measConf.field.mask = HMC5843_MEAS_CONF_MASK := by decide
  have hand := Field.toNat_and_mask (f := Setting.measConf.field) rfl
    (data.regmap HMC5843_CONFIG_REG_A)
  rw [hmask] at hand
  exact congrArg Int.ofNat hand

/-- What a call writes to the measurement configuration is the place that it names. -/
theorem Call.writes_measConf {id : Ids} {c : Call} (h : c.Listed id) :
    ((c.writes id .measConf).map fun r => r.toNat) = c.measConf := by
  cases c with
  | writeRaw bus val val2 mask =>
    cases mask with
    | sampFreq =>
      simp only [writes, target, measConf]
      cases (hmc5843ChipInfoTbl id).regvalToSampFreq.idxOf? (val, val2) <;> simp
    | scale =>
      simp only [writes, target, measConf]
      by_cases hval : val = 0
      · rw [if_pos hval]
        cases (hmc5843ChipInfoTbl id).regvalToNanoscale.idxOf? val2 <;> simp
      · simp [hval]
    | _ => rfl
  | setMeasurementConfiguration bus m =>
    have hlt : m.toNat < 4 := Nat.lt_of_lt_of_le h (length_measConfModes_le id)
    have hm : ((m.setWidth 8).setWidth Setting.measConf.field.width).toNat = m.toNat := by
      simp only [BitVec.toNat_setWidth, Setting.field]
      omega
    by_cases hb : bus.carries = true
    · simp [writes, target, Call.bus, hb, measConf, hm]
    · simp [writes, target, Call.bus, hb, measConf]
  | suspend bus => simp [writes, target, measConf]
  | resume bus => simp [writes, target, measConf]

/-- After the chip is set up, the scale read back is the one last written, and the measurement
configuration shown is the one last chosen among those that the variant lists. -/
theorem hmc5843_scale_and_conf_read_back (o : InitOutcomes) (data : Hmc5843Data)
    (calls : List Call) (h : (hmc5843Init o data).1 = 0) (hlisted : ∀ c ∈ calls, c.Listed data.id) :
    readScale .ok ((hmc5843Init o data).2.run calls) =
        some (.intPlusNano 0 (lastWrite (Call.scale data.id) (defaultScale data.id) calls)) ∧
      hmc5843ShowMeasurementConfiguration .ok ((hmc5843Init o data).2.run calls) =
        lastWrite Call.measConf 0 calls ∧
      lastWrite Call.measConf 0 calls < (hmc5843ChipInfoTbl data.id).measConfModes.length := by
  obtain ⟨hconf, -, hgain, -⟩ := hmc5843Init_get h
  refine ⟨?_, ?_, ?_⟩
  · have hentry := gain_entry (hmc5843Init o data).2 calls (congrArg BitVec.toNat hgain)
    rw [hmc5843Init_id h] at hentry
    rw [readScale_ok, Hmc5843Data.run_variant, hentry]
    rfl
  · have hzero : (Setting.measConf.get (hmc5843Init o data).2.regmap).toNat = 0 :=
      congrArg BitVec.toNat hconf
    rw [hmc5843ShowMeasurementConfiguration_ok, Hmc5843Data.run_get, hmc5843Init_id h,
      lastWrite_map (fun r : BitVec Setting.measConf.field.width => r.toNat), hzero]
    exact congrArg Int.ofNat (lastWrite_congr fun c hc => Call.writes_measConf (hlisted c hc))
  · refine lastWrite_of_forall (P := (· < _)) ?_ fun c hc m hm => ?_
    · cases data.id <;> decide
    · have hl := hlisted c hc
      cases c with
      | setMeasurementConfiguration bus measConf =>
        simp only [Call.measConf, Option.ite_none_right_eq_some, Option.some.injEq] at hm
        exact hm.2 ▸ hl
      | _ => cases hm

/-- A bias and a scale, with a suspend in between. -/
theorem hmc5843_scale_and_conf_read_back_bias :
    readScale .ok ((hmc5843Init .smooth ⟨.hmc5883l, fun _ => 0x10⟩).2.run
        [.setMeasurementConfiguration .ok 1, .suspend .ok, .writeRaw .ok 0 30303 .scale]) =
      some (.intPlusNano 0 30303) ∧
    hmc5843ShowMeasurementConfiguration .ok ((hmc5843Init .smooth ⟨.hmc5883l, fun _ => 0x10⟩).2.run
        [.setMeasurementConfiguration .ok 1, .suspend .ok, .writeRaw .ok 0 30303 .scale]) = 1 := by
  have hback := hmc5843_scale_and_conf_read_back .smooth ⟨.hmc5883l, fun _ => 0x10⟩
    [.setMeasurementConfiguration .ok 1, .suspend .ok, .writeRaw .ok 0 30303 .scale] (by decide)
    (by simp [Call.Listed, hmc5843ChipInfoTbl, hmc5843MeasConfModes])
  rw [hback.1, hback.2.1]
  decide

/-- An update with the value that the setting has changes nothing. -/
theorem Setting.put_get (s : Setting) {v : BitVec 8} {data : Hmc5843Data}
    (h : v.setWidth s.field.width = s.get data.regmap) (bus : Bus) :
    s.put bus v data = (bus.ret, data) := by
  have hregmap : (s.put bus v data).2.regmap = data.regmap := by
    funext reg
    rw [put_regmap]
    split
    · next hb => rw [hb.2, Field.put_get h]
    · rfl
  exact Prod.ext rfl (congrArg (Hmc5843Data.mk data.id) hregmap)

/-- The entry at a place of a table without repetitions is found at that place. -/
theorem idxOf?_of_getElem? {α : Type*} [BEq α] [LawfulBEq α] {table : List α} (hn : table.Nodup)
    {a : α} {i : Nat} (h : table[i]? = some a) : table.idxOf? a = some i := by
  obtain ⟨hlt, ha⟩ := List.getElem?_eq_some_iff.mp h
  refine List.idxOf?_eq_some_iff.mpr ⟨hlt, ha, fun j hj he => ?_⟩
  exact List.pairwise_iff_getElem.mp hn j i _ hlt hj (he.trans ha.symm)

/-- No frequency is in a table twice. -/
theorem nodup_regvalToSampFreq (id : Ids) : (hmc5843ChipInfoTbl id).regvalToSampFreq.Nodup := by
  cases id <;> decide

/-- No scale is in a table twice. -/
theorem nodup_regvalToNanoscale (id : Ids) : (hmc5843ChipInfoTbl id).regvalToNanoscale.Nodup := by
  cases id <;> decide

/-- What a setting holds, taken for a place in a table and stored again. -/
theorem Setting.setWidth_ofNat_toNat (s : Setting) (v : BitVec s.field.width) :
    (BitVec.ofNat 8 v.toNat).setWidth s.field.width = v := by
  have hw : s.field.width ≤ 8 := by cases s <;> decide
  have hlt : v.toNat < 2 ^ 8 := Nat.lt_of_lt_of_le v.isLt (Nat.pow_le_pow_right (by decide) hw)
  apply BitVec.eq_of_toNat_eq
  rw [BitVec.toNat_setWidth, BitVec.toNat_ofNat, Nat.mod_eq_of_lt hlt, Nat.mod_eq_of_lt v.isLt]

/-- An answer in a format. -/
def Format.answer (val val2 : Int) : Format → Answer
  | .intPlusMicro => .intPlusMicro val val2
  | .intPlusNano => .intPlusNano val val2

/-- Whatever the chip holds, a number that is read from an attribute with a format is in that
format and is accepted when it is written back, which then changes nothing. Writes to the
attributes without a format are refused. -/
theorem hmc5843_read_write_back (data : Hmc5843Data) (conv : Conversion) (chan : ChanSpec)
    (mask : ChanInfo) :
    match hmc5843WriteRawGetFmt mask with
    | .ok fmt => ∀ answer, hmc5843ReadRaw .ok conv chan mask data = some answer →
      ∃ val val2, answer = fmt.answer val val2 ∧ ∀ bus : Bus,
        hmc5843WriteRaw bus val val2 mask data = (bus.ret, data)
    | .error ret => ∀ bus val val2, hmc5843WriteRaw bus val val2 mask data = (ret, data) := by
  have hserve := fun bus val val2 => Call.serve_eq data (.writeRaw bus val val2 mask)
  cases mask with
  | scale =>
    intro answer hread
    rw [hmc5843ReadRaw, readScale_ok] at hread
    obtain ⟨entry, hentry, rfl⟩ := Option.map_eq_some_iff.mp hread
    have hidx := idxOf?_of_getElem? (nodup_regvalToNanoscale data.id) hentry
    refine ⟨0, entry, rfl, fun bus => (hserve bus 0 entry).trans ?_⟩
    simp only [Call.target, ite_true, hidx, Option.map_some]
    exact Setting.put_get .gain (Setting.setWidth_ofNat_toNat .gain _) bus
  | sampFreq =>
    intro answer hread
    rw [hmc5843ReadRaw, readSampFreq_ok] at hread
    obtain ⟨entry, hentry, rfl⟩ := Option.map_eq_some_iff.mp hread
    have habove : (aboveRate.get (data.regmap HMC5843_CONFIG_REG_A)).toNat <<< 3 = 0 := by
      have hlt := (List.getElem?_eq_some_iff.mp hentry).1
      have hlen := length_regvalToSampFreq_le data.id
      rw [Nat.shiftLeft_eq] at hlt ⊢
      simp only [Hmc5843Data.variant] at hlt
      omega
    rw [habove, Nat.add_zero] at hentry
    have hidx := idxOf?_of_getElem? (nodup_regvalToSampFreq data.id) hentry
    refine ⟨entry.1, entry.2, rfl, fun bus => (hserve bus entry.1 entry.2).trans ?_⟩
    simp only [Call.target, hidx, Option.map_some]
    exact Setting.put_get .rate (Setting.setWidth_ofNat_toNat .rate _) bus
  | _ => exact fun _ _ _ => rfl

end OsCourseLabs.Iio.Hmc5843
