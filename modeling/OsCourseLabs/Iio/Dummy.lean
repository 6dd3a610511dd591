import OsCourseLabs.Core.Errno
import OsCourseLabs.Iio.Channel

/-!
# The dummy IIO driver

The driver keeps the values of its attributes in a state of its own instead of a device.
Reading and writing dispatch on the attribute and then on the channel.
-/

namespace OsCourseLabs.Iio.Dummy

/-- `struct iio_dummy_accel_calibscale`. -/
structure AccelCalibscale where
  val : Int
  val2 : Int
  regval : Int
  deriving DecidableEq, Repr

/-- The calibration scales that can be chosen. -/
def dummyScales : List AccelCalibscale := [⟨0, 100, 0x8⟩, ⟨0, 133, 0x7⟩, ⟨733, 13, 0x9⟩]

/-- `struct iio_dummy_state`; the pointer into `dummy_scales` is null until it is set. -/
structure DummyState where
  dacVal : Int
  singleEndedAdcVal : Int
  differentialAdcVal0 : Int
  differentialAdcVal1 : Int
  accelVal : Int
  accelCalibbias : Int
  accelCalibscale : Option (Fin dummyScales.length)
  activityRunning : Int
  activityWalking : Int
  stepsEnabled : Int
  steps : Int
  height : Int
  deriving DecidableEq, Repr

/-- `iio_dummy_read_raw`; a read through the null pointer has no answer. -/
def iioDummyReadRaw (st : DummyState) (chan : ChanSpec) (mask : ChanInfo) : Option Answer :=
  match mask with
  | .raw =>
    match chan.type with
    | .voltage =>
      if chan.output then some (.int st.dacVal)
      else if chan.differential then
        if chan.channel = 1 then some (.int st.differentialAdcVal0)
        else some (.int st.differentialAdcVal1)
      else some (.int st.singleEndedAdcVal)
    | .accel => some (.int st.accelVal)
    | _ => some (.error (-EINVAL))
  | .processed =>
    match chan.type with
    | .steps => some (.int st.steps)
    | .activity =>
      match chan.channel2 with
      | .modifier .running => some (.int st.activityRunning)
      | .modifier .walking => some (.int st.activityWalking)
      | _ => some (.error (-EINVAL))
    | _ => some (.error (-EINVAL))
  | .offset => some (.int 7)
  | .scale =>
    match chan.type with
    | .voltage =>
      if chan.differential then some (.intPlusNano 0 1344) else some (.intPlusMicro 0 1333)
    | _ => some (.error (-EINVAL))
  | .calibbias => some (.int st.accelCalibbias)
  | .calibscale =>
    st.accelCalibscale.map fun i => .intPlusMicro (dummyScales.get i).val (dummyScales.get i).val2
  | .sampFreq => some (.intPlusNano 3 33)
  | .enable =>
    match chan.type with
    | .steps => some (.int st.stepsEnabled)
    | _ => some (.error (-EINVAL))
  | .calibheight =>
    match chan.type with
    | .steps => some (.int st.height)
    | _ => some (.error (-EINVAL))
  | .other _ => some (.error (-EINVAL))

/-- The loop over `dummy_scales` in `iio_dummy_write_raw`. -/
def findScale (val val2 : Int) : Option (Fin dummyScales.length) :=
  dummyScales.findFinIdx? fun scale => val = scale.val ∧ val2 = scale.val2

/-- The two tests on a confidence. -/
def clampActivity (val : Int) : Int :=
  let val := if val < 0 then 0 else val
  if 100 < val then 100 else val

/-- `iio_dummy_write_raw`. -/
def iioDummyWriteRaw (st : DummyState) (chan : ChanSpec) (val val2 : Int) (mask : ChanInfo) :
    Int × DummyState :=
  match mask with
  | .raw =>
    match chan.type with
    | .voltage => if chan.output then (0, { st with dacVal := val }) else (-EINVAL, st)
    | _ => (-EINVAL, st)
  | .processed =>
    match chan.type with
    | .steps => (0, { st with steps := val })
    | .activity =>
      match chan.channel2 with
      | .modifier .running => (0, { st with activityRunning := clampActivity val })
      | .modifier .walking => (0, { st with activityWalking := clampActivity val })
      | _ => (-EINVAL, st)
    | _ => (-EINVAL, st)
  | .calibscale =>
    match findScale val val2 with
    | none => (-EINVAL, st)
    | some i => (0, { st with accelCalibscale := some i })
  | .calibbias => (0, { st with accelCalibbias := val })
  | .enable =>
    match chan.type with
    | .steps => (0, { st with stepsEnabled := val })
    | _ => (-EINVAL, st)
  | .calibheight =>
    match chan.type with
    | .steps => (0, { st with height := val })
    | _ => (-EINVAL, st)
  | _ => (-EINVAL, st)

/-- `iio_dummy_init_device`. -/
def iioDummyInitDevice (st : DummyState) : DummyState :=
  { st with
    dacVal := 0
    singleEndedAdcVal := 73
    differentialAdcVal0 := 33
    differentialAdcVal1 := -34
    accelVal := 34
    accelCalibbias := -7
    accelCalibscale := some ⟨0, by decide⟩
    steps := 47
    activityRunning := 98
    activityWalking := 4 }

/-- `iio_dummy_channels`. -/
def iioDummyChannels : List ChanSpec :=
  [{ type := .voltage, channel := 0, channel2 := .number 0, output := false
     differential := false, scanIndex := 0, infoMask := [.raw, .offset, .scale, .sampFreq] },
   { type := .voltage, channel := 1, channel2 := .number 2, output := false
     differential := true, scanIndex := 1, infoMask := [.raw, .scale] },
   { type := .voltage, channel := 3, channel2 := .number 4, output := false
     differential := true, scanIndex := 2, infoMask := [.raw, .scale, .sampFreq] },
   { type := .accel, channel := 0, channel2 := .modifier .x, output := false
     differential := false, scanIndex := 3
     infoMask := [.raw, .calibscale, .calibbias, .sampFreq] },
   { type := .timestamp, channel := -1, channel2 := .number 0, output := false
     differential := false, scanIndex := 4, infoMask := [] },
   { type := .voltage, channel := 0, channel2 := .number 0, output := true
     differential := false, scanIndex := -1, infoMask := [.raw] },
   { type := .steps, channel := 0, channel2 := .number 0, output := false
     differential := false, scanIndex := -1, infoMask := [.enable, .calibheight, .processed] },
   { type := .activity, channel := 0, channel2 := .modifier .running, output := false
     differential := false, scanIndex := -1, infoMask := [.processed] },
   { type := .activity, channel := 0, channel2 := .modifier .walking, output := false
     differential := false, scanIndex := -1, infoMask := [.processed] }]

end OsCourseLabs.Iio.Dummy
