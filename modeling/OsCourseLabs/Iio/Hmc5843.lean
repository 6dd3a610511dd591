import OsCourseLabs.Core.BitFields
import OsCourseLabs.Core.Errno
import OsCourseLabs.Iio.Channel

/-!
# The core of the HMC5843 driver

The register map is read and updated over a bus that may fail; how each access goes is an
argument. The settings of the chip are bit fields of its registers, and the tables of a
variant say which value of a field stands for which frequency or scale. A table read
outside its bounds has no answer.
-/

namespace OsCourseLabs.Iio.Hmc5843

open BitFields

/-- Configuration register A: the measurement configuration and the rate. -/
def HMC5843_CONFIG_REG_A : BitVec 8 := 0x00

/-- Configuration register B: the gain. -/
def HMC5843_CONFIG_REG_B : BitVec 8 := 0x01

/-- The register of the operating mode. -/
def HMC5843_MODE_REG : BitVec 8 := 0x02

/-- Where the gain begins in its register. -/
def HMC5843_RANGE_GAIN_OFFSET : Nat := 0x05

/-- The gain that `hmc5843_init` sets. -/
def HMC5843_RANGE_GAIN_DEFAULT : BitVec 8 := 0x01

/-- The bits of the gain. -/
def HMC5843_RANGE_GAIN_MASK : BitVec 8 := 0xe0

/-- The bit of the status that says a measurement is there. -/
def HMC5843_DATA_READY : BitVec 8 := 0x01

/-- The chip measures all the time. -/
def HMC5843_MODE_CONVERSION_CONTINUOUS : BitVec 8 := 0x00

/-- The chip measures nothing. -/
def HMC5843_MODE_SLEEP : BitVec 8 := 0x03

/-- The bits of the operating mode. -/
def HMC5843_MODE_MASK : BitVec 8 := 0x03

/-- Where the rate begins in its register. -/
def HMC5843_RATE_OFFSET : Nat := 0x02

/-- The rate that `hmc5843_init` sets. -/
def HMC5843_RATE_DEFAULT : BitVec 8 := 0x04

/-- The bits of the rate. -/
def HMC5843_RATE_MASK : BitVec 8 := 0x1c

/-- A measurement without bias. -/
def HMC5843_MEAS_CONF_NORMAL : BitVec 8 := 0x00

/-- The bits of the measurement configuration. -/
def HMC5843_MEAS_CONF_MASK : BitVec 8 := 0x03

/-- The register map, as the driver reads it. -/
abbrev Registers := BitVec 8 → BitVec 8

/-- How an access to the register map goes. An update that fails may have changed the
register or not. -/
inductive Bus where
  | ok
  | error (errno : Nat) (landed : Bool)
  deriving DecidableEq, Repr

/-- The register is changed by an access that goes so. -/
def Bus.carries : Bus → Bool
  | .ok => true
  | .error _ landed => landed

/-- What an access answers: zero or a negative error. -/
def Bus.ret : Bus → Int
  | .ok => 0
  | .error errno _ => errorCode errno

/-- `regmap_read`. -/
def regmapRead (bus : Bus) (reg : BitVec 8) (regmap : Registers) : Except Int (BitVec 8) :=
  match bus with
  | .ok => .ok (regmap reg)
  | .error errno _ => .error (errorCode errno)

/-- `regmap_update_bits`. -/
def regmapUpdateBits (bus : Bus) (reg mask val : BitVec 8) (regmap : Registers) :
    Int × Registers :=
  (bus.ret,
    if bus.carries then fun r => if r = reg then updateBits mask val (regmap reg) else regmap r
    else regmap)

/-- `enum hmc5843_ids`. -/
inductive Ids where
  | hmc5843
  | hmc5883
  | hmc5883l
  | hmc5983
  deriving DecidableEq, Repr

/-- The measurement configurations of the first three variants, by the value of the field. -/
def hmc5843MeasConfModes : List String := ["normal", "positivebias", "negativebias"]

/-- The HMC5983 has one configuration more. -/
def hmc5983MeasConfModes : List String := ["normal", "positivebias", "negativebias", "disabled"]

/-- The scales of the HMC5843 in nanounits, by the value of the gain. -/
def hmc5843RegvalToNanoscale : List Int := [6173, 7692, 10309, 12821, 18868, 21739, 25641, 35714]

/-- The scales of the HMC5883. -/
def hmc5883RegvalToNanoscale : List Int := [7812, 9766, 13021, 16287, 24096, 27701, 32573, 45662]

/-- The scales of the HMC5883L, which the HMC5983 shares. -/
def hmc5883lRegvalToNanoscale : List Int :=
  [7299, 9174, 12195, 15152, 22727, 25641, 30303, 43478]

/-- The frequencies of the HMC5843 as integer and millionths, by the value of the rate. -/
def hmc5843RegvalToSampFreq : List (Int × Int) :=
  [(0, 500000), (1, 0), (2, 0), (5, 0), (10, 0), (20, 0), (50, 0)]

/-- The frequencies of the HMC5883, which the HMC5883L shares. -/
def hmc5883RegvalToSampFreq : List (Int × Int) :=
  [(0, 750000), (1, 500000), (3, 0), (7, 500000), (15, 0), (30, 0), (75, 0)]

/-- The frequencies of the HMC5983, the only variant with a value for every rate. -/
def hmc5983RegvalToSampFreq : List (Int × Int) :=
  [(0, 750000), (1, 500000), (3, 0), (7, 500000), (15, 0), (30, 0), (75, 0), (220, 0)]

/-- `HMC5843_CHANNEL` and `HMC5983_CHANNEL`. -/
def channel (axis : Modifier) (idx : Int) : ChanSpec :=
  { type := .magn, channel := 0, channel2 := .modifier axis, output := false
    differential := false, scanIndex := idx, infoMask := [.raw, .scale, .sampFreq] }

/-- `IIO_CHAN_SOFT_TIMESTAMP`. -/
def softTimestamp (idx : Int) : ChanSpec :=
  { type := .timestamp, channel := -1, channel2 := .number 0, output := false
    differential := false, scanIndex := idx, infoMask := [] }

/-- The channels of the HMC5843: its axes in their order, and the timestamp. -/
def hmc5843Channels : List ChanSpec := [channel .x 0, channel .y 1, channel .z 2, softTimestamp 3]

/-- Y and Z are exchanged on these chips. -/
def hmc5883Channels : List ChanSpec := [channel .x 0, channel .z 1, channel .y 2, softTimestamp 3]

/-- `struct hmc5843_chip_info`; the modes of the measurement configuration are those that the
channels of the variant carry. -/
structure ChipInfo where
  channels : List ChanSpec
  measConfModes : List String
  regvalToSampFreq : List (Int × Int)
  regvalToNanoscale : List Int
  deriving DecidableEq, Repr

/-- The chip information of each variant. -/
def hmc5843ChipInfoTbl : Ids → ChipInfo
  | .hmc5843 =>
    ⟨hmc5843Channels, hmc5843MeasConfModes, hmc5843RegvalToSampFreq, hmc5843RegvalToNanoscale⟩
  | .hmc5883 =>
    ⟨hmc5883Channels, hmc5843MeasConfModes, hmc5883RegvalToSampFreq, hmc5883RegvalToNanoscale⟩
  | .hmc5883l =>
    ⟨hmc5883Channels, hmc5843MeasConfModes, hmc5883RegvalToSampFreq, hmc5883lRegvalToNanoscale⟩
  | .hmc5983 =>
    ⟨hmc5883Channels, hmc5983MeasConfModes, hmc5983RegvalToSampFreq, hmc5883lRegvalToNanoscale⟩

/-- `struct hmc5843_data`; which variant the pointer to the chip information names is kept. -/
structure Hmc5843Data where
  id : Ids
  regmap : Registers

/-- The chip information that the device was probed with. -/
def Hmc5843Data.variant (data : Hmc5843Data) : ChipInfo := hmc5843ChipInfoTbl data.id

/-- What the four setters do: one update of a register, under the lock. -/
def updateLocked (bus : Bus) (reg mask val : BitVec 8) (data : Hmc5843Data) : Int × Hmc5843Data :=
  let (ret, regmap) := regmapUpdateBits bus reg mask val data.regmap
  (ret, { data with regmap := regmap })

/-- Set the operating mode. -/
def hmc5843SetMode (bus : Bus) (operatingMode : BitVec 8) (data : Hmc5843Data) :
    Int × Hmc5843Data :=
  updateLocked bus HMC5843_MODE_REG HMC5843_MODE_MASK operatingMode data

/-- Set the measurement configuration. -/
def hmc5843SetMeasConf (bus : Bus) (measConf : BitVec 8) (data : Hmc5843Data) :
    Int × Hmc5843Data :=
  updateLocked bus HMC5843_CONFIG_REG_A HMC5843_MEAS_CONF_MASK measConf data

/-- Set the rate, given by its value in the table. -/
def hmc5843SetSampFreq (bus : Bus) (rate : BitVec 8) (data : Hmc5843Data) : Int × Hmc5843Data :=
  updateLocked bus HMC5843_CONFIG_REG_A HMC5843_RATE_MASK (rate <<< HMC5843_RATE_OFFSET) data

/-- Set the gain, given by its value in the table. -/
def hmc5843SetRangeGain (bus : Bus) (range : BitVec 8) (data : Hmc5843Data) : Int × Hmc5843Data :=
  updateLocked bus HMC5843_CONFIG_REG_B HMC5843_RANGE_GAIN_MASK
    (range <<< HMC5843_RANGE_GAIN_OFFSET) data

/-- The measurement configuration as it is in the register, or an error. -/
def hmc5843ShowMeasurementConfiguration (bus : Bus) (data : Hmc5843Data) : Int :=
  match regmapRead bus HMC5843_CONFIG_REG_A data.regmap with
  | .error ret => ret
  | .ok val => (val &&& HMC5843_MEAS_CONF_MASK).toNat

/-- The parameter is an unsigned int, of which the setter takes the low byte. -/
def hmc5843SetMeasurementConfiguration (bus : Bus) (measConf : BitVec 32) (data : Hmc5843Data) :
    Int × Hmc5843Data :=
  hmc5843SetMeasConf bus (measConf.setWidth 8) data

/-- The value of the rate that stands for a frequency, if one does. -/
def hmc5843GetSampFreqIndex (data : Hmc5843Data) (val val2 : Int) : Int :=
  match data.variant.regvalToSampFreq.findIdx? fun entry => val = entry.1 ∧ val2 = entry.2 with
  | some i => i
  | none => -EINVAL

/-- The value of the gain that stands for a scale; none has an integer part. -/
def hmc5843GetScaleIndex (data : Hmc5843Data) (val val2 : Int) : Int :=
  if val ≠ 0 then -EINVAL
  else
    match data.variant.regvalToNanoscale.findIdx? fun entry => val2 = entry with
    | some i => i
    | none => -EINVAL

/-- `hmc5843_write_raw`: only a frequency or a scale of the tables reaches the chip. -/
def hmc5843WriteRaw (bus : Bus) (val val2 : Int) (mask : ChanInfo) (data : Hmc5843Data) :
    Int × Hmc5843Data :=
  match mask with
  | .sampFreq =>
    let rate := hmc5843GetSampFreqIndex data val val2
    if rate < 0 then (-EINVAL, data) else hmc5843SetSampFreq bus (BitVec.ofInt 8 rate) data
  | .scale =>
    let range := hmc5843GetScaleIndex data val val2
    if range < 0 then (-EINVAL, data) else hmc5843SetRangeGain bus (BitVec.ofInt 8 range) data
  | _ => (-EINVAL, data)

/-- A format in which the core splits a number that user space writes. -/
inductive Format where
  | intPlusMicro
  | intPlusNano
  deriving DecidableEq, Repr

/-- `hmc5843_write_raw_get_fmt`: a scale is too small for millionths. -/
def hmc5843WriteRawGetFmt : ChanInfo → Except Int Format
  | .sampFreq => .ok .intPlusMicro
  | .scale => .ok .intPlusNano
  | _ => .error (-EINVAL)

/-- The case `IIO_CHAN_INFO_SCALE` of `hmc5843_read_raw`. -/
def readScale (bus : Bus) (data : Hmc5843Data) : Option Answer :=
  match regmapRead bus HMC5843_CONFIG_REG_B data.regmap with
  | .error ret => some (.error ret)
  | .ok rval =>
    (data.variant.regvalToNanoscale[(rval >>> HMC5843_RANGE_GAIN_OFFSET).toNat]?).map
      (.intPlusNano 0)

/-- The case `IIO_CHAN_INFO_SAMP_FREQ` of `hmc5843_read_raw`; no mask is applied to the shifted
register. -/
def readSampFreq (bus : Bus) (data : Hmc5843Data) : Option Answer :=
  match regmapRead bus HMC5843_CONFIG_REG_A data.regmap with
  | .error ret => some (.error ret)
  | .ok rval =>
    (data.variant.regvalToSampFreq[(rval >>> HMC5843_RATE_OFFSET).toNat]?).map fun entry =>
      .intPlusMicro entry.1 entry.2

/-- `hmc5843_common_suspend`. -/
def hmc5843CommonSuspend (bus : Bus) (data : Hmc5843Data) : Int × Hmc5843Data :=
  hmc5843SetMode bus HMC5843_MODE_SLEEP data

/-- `hmc5843_common_resume`. -/
def hmc5843CommonResume (bus : Bus) (data : Hmc5843Data) : Int × Hmc5843Data :=
  hmc5843SetMode bus HMC5843_MODE_CONVERSION_CONTINUOUS data

/-- How the accesses of `hmc5843_init` go: the identification and the four updates. -/
structure InitOutcomes where
  id : Except Nat (Vector (BitVec 8) 3)
  measConf : Bus
  sampFreq : Bus
  rangeGain : Bus
  mode : Bus

/-- `hmc5843_init`: the chip is identified and gets its defaults, up to the first error. -/
def hmc5843Init (o : InitOutcomes) (data : Hmc5843Data) : Int × Hmc5843Data :=
  match o.id with
  | .error errno => (errorCode errno, data)
  | .ok id =>
    -- 'H', '4', '3'
    if id[0] ≠ 0x48 ∨ id[1] ≠ 0x34 ∨ id[2] ≠ 0x33 then (-ENODEV, data)
    else
      let (ret, data) := hmc5843SetMeasConf o.measConf HMC5843_MEAS_CONF_NORMAL data
      if ret < 0 then (ret, data)
      else
        let (ret, data) := hmc5843SetSampFreq o.sampFreq HMC5843_RATE_DEFAULT data
        if ret < 0 then (ret, data)
        else
          let (ret, data) := hmc5843SetRangeGain o.rangeGain HMC5843_RANGE_GAIN_DEFAULT data
          if ret < 0 then (ret, data)
          else hmc5843SetMode o.mode HMC5843_MODE_CONVERSION_CONTINUOUS data

end OsCourseLabs.Iio.Hmc5843
