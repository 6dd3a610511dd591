import OsCourseLabs.Core.Polling
import OsCourseLabs.Iio.Hmc5843

/-!
# Measurements of an HMC5843

A measurement waits for the chip, at most 150 reads of its status long, and then reads three
big-endian values at once. A reader gets one of them as an integer; the trigger handler
pushes all three as they are, for a consumer to decode as the channels describe them.
-/

namespace OsCourseLabs.Iio.Hmc5843

open Polling

/-- What the chip answers during one measurement: to each read of the status register, and to
the read of the data registers. -/
structure Conversion where
  status : Nat → Except Nat (BitVec 8)
  data : Except Nat (Vector (BitVec 8) 6)

/-- The loop of `hmc5843_wait_measurement`, with the tries left and the status reads made; when
the test of the tries fails, the decrement leaves -1. -/
def waitLoop (status : Nat → Except Nat (BitVec 8)) : (tries i : Nat) → Int × Nat
  | 0, i => (- EIO, i)
  | tries + 1, i =>
    match status i with
    | .error errno => (errorCode errno, i + 1)
    | .ok val =>
      if val &&& HMC5843_DATA_READY ≠ 0 then (0, i + 1) else waitLoop status tries (i + 1)

/-- The answer, and how often the status is read. -/
def hmc5843WaitMeasurement (conv : Conversion) : Int × Nat := waitLoop conv.status 150 0

/-- `be16_to_cpu` of one of the three values. -/
def be16ToCpu (values : Vector (BitVec 8) 6) (idx : Fin 3) : BitVec 16 :=
  values[2 * idx.val] ++ values[2 * idx.val + 1]

/-- `sign_extend32`. -/
def signExtend32 (value : BitVec 32) (index : Nat) : Int :=
  ((value <<< (31 - index)).sshiftRight (31 - index)).toInt

/-- An index past the three values has no answer. -/
def hmc5843ReadMeasurement (conv : Conversion) (idx : Int) : Option Answer :=
  let ret := (hmc5843WaitMeasurement conv).1
  if ret < 0 then some (.error ret)
  else
    match conv.data with
    | .error errno => some (.error (errorCode errno))
    | .ok values =>
      if h : 0 ≤ idx ∧ idx < 3 then
        some (.int (signExtend32 ((be16ToCpu values ⟨idx.toNat, by omega⟩).setWidth 32) 15))
      else none

/-- `hmc5843_read_raw`. -/
def hmc5843ReadRaw (bus : Bus) (conv : Conversion) (chan : ChanSpec) (mask : ChanInfo)
    (data : Hmc5843Data) : Option Answer :=
  match mask with
  | .raw => hmc5843ReadMeasurement conv chan.scanIndex
  | .scale => readScale bus data
  | .sampFreq => readSampFreq bus data
  | _ => some (.error (-EINVAL))

/-- What the trigger handler tells the IIO core. -/
inductive TriggerEvent where
  | pushToBuffers (buffer : Vector (BitVec 8) 6)
  | notifyDone
  deriving DecidableEq, Repr

/-- `hmc5843_trigger_handler`: an error skips the buffer, not the notification. -/
def hmc5843TriggerHandler (conv : Conversion) : List TriggerEvent :=
  let ret := (hmc5843WaitMeasurement conv).1
  if ret < 0 then [.notifyDone]
  else
    match conv.data with
    | .error _ => [.notifyDone]
    | .ok buffer => [.pushToBuffers buffer, .notifyDone]

/-- `scan_type` of the three axes. -/
def axisScanType : ScanType :=
  { signed := true, realbits := 16, storagebits := 16, shift := 0, bigEndian := true }

/-- The status shows that data is ready. -/
def dataReady (val : BitVec 8) : Bool := val &&& HMC5843_DATA_READY ≠ 0

/-- The wait is a poll of the status that an error ends too. -/
theorem waitLoop_eq_poll (status : Nat → Except Nat (BitVec 8)) (tries i : Nat) :
    waitLoop status tries i =
      (match (poll (statusAnswer dataReady status) tries i).1 with
        | some (.ok _) => 0
        | some (.error errno) => errorCode errno
        | none => - EIO,
      (poll (statusAnswer dataReady status) tries i).2) := by
  induction tries generalizing i with
  | zero => rfl
  | succ tries ih =>
    rw [waitLoop, poll, statusAnswer]
    cases status i with
    | error errno => rfl
    | ok val =>
      by_cases hready : val &&& HMC5843_DATA_READY ≠ 0
      · have hr : dataReady val = true := by simpa [dataReady] using hready
        simp only [if_pos hready, hr, ite_true]
      · have hr : dataReady val = false := by simpa [dataReady] using hready
        simp only [if_neg hready, hr]
        exact ih (i + 1)

/-- The wait ends well when one of the first 150 status reads is the first to show the chip
ready and no read before it fails. -/
theorem hmc5843WaitMeasurement_iff (conv : Conversion) :
    ¬ (hmc5843WaitMeasurement conv).1 < 0 ↔ ∃ k < 150, Awaited dataReady conv.status k := by
  rw [hmc5843WaitMeasurement, waitLoop_eq_poll]
  rcases poll_status_cases dataReady conv.status 150 with
    ⟨k, hk, h, hp⟩ | ⟨hnot, ⟨e, k, -, hp⟩ | hp⟩ <;> rw [hp]
  · exact iff_of_true (Int.lt_irrefl 0) ⟨k, hk, h⟩
  · exact iff_of_false (not_not.mpr (Int.negSucc_lt_zero e)) hnot
  · exact iff_of_false (not_not.mpr (by decide)) hnot

/-- The sign bit of the low half of a word is copied to the high half. -/
theorem signExtend32_setWidth (v : BitVec 16) : signExtend32 (v.setWidth 32) 15 = v.toInt := by
  have hv := v.isLt
  rw [signExtend32, BitVec.toInt_sshiftRight, BitVec.toInt_eq_toNat_cond,
    BitVec.toInt_eq_toNat_cond, BitVec.toNat_shiftLeft, BitVec.toNat_setWidth]
  simp only [Int.shiftRight_eq_div_pow, Nat.shiftLeft_eq]
  omega

/-- The bytes of an axis in a scan of three values. -/
def scanElement (buffer : Vector (BitVec 8) 6) (i : Fin 3) : List (BitVec 8) :=
  [buffer[2 * i.val], buffer[2 * i.val + 1]]

/-- The first byte of a value is its high one. -/
theorem be16ToCpu_toNat (values : Vector (BitVec 8) 6) (i : Fin 3) :
    (be16ToCpu values i).toNat = 256 * values[2 * i.val].toNat + values[2 * i.val + 1].toNat := by
  have hlow := values[2 * i.val + 1].isLt
  rw [be16ToCpu, BitVec.toNat_append, ← Nat.shiftLeft_add_eq_or_of_lt hlow, Nat.shiftLeft_eq]
  omega

/-- A consumer of the buffer decodes the value that a reader is given. -/
theorem decode_scanElement (buffer : Vector (BitVec 8) 6) (i : Fin 3) :
    axisScanType.decode (scanElement buffer i) = (be16ToCpu buffer i).toInt := by
  have hnat := be16ToCpu_toNat buffer i
  have hlt := (be16ToCpu buffer i).isLt
  rw [BitVec.toInt_eq_toNat_cond, hnat]
  rw [hnat] at hlt
  simp only [ScanType.decode, axisScanType, scanElement, List.foldl_cons, List.foldl_nil,
    Nat.shiftRight_zero, Nat.shiftLeft_eq, ite_true, true_and]
  split <;> split <;> omega

/-- A 16-bit word is the two's complement of a number in its range. -/
theorem toInt_eq_iff (x : BitVec 16) (v : Int) :
    x.toInt = v ↔ -32768 ≤ v ∧ v < 32768 ∧ (x.toNat : Int) = v % 65536 := by
  have hx := x.isLt
  rw [BitVec.toInt_eq_toNat_cond]
  split <;> omega

/-- The channels that can be read raw are the three axes. -/
theorem scanIndex_of_raw {id : Ids} {chan : ChanSpec}
    (hc : chan ∈ (hmc5843ChipInfoTbl id).channels) (hraw : .raw ∈ chan.infoMask) :
    ∃ i : Fin 3, chan.scanIndex = i.val := by
  have hall : ∀ chan ∈ (hmc5843ChipInfoTbl id).channels, .raw ∈ chan.infoMask →
      ∃ i : Fin 3, chan.scanIndex = i.val := by cases id <;> decide
  exact hall chan hc hraw

/-- A measurement of an axis is the signed value of its two bytes, unless the bus fails. -/
theorem hmc5843ReadMeasurement_eq (conv : Conversion) (i : Fin 3) :
    hmc5843ReadMeasurement conv i.val =
      if (hmc5843WaitMeasurement conv).1 < 0 then some (.error (hmc5843WaitMeasurement conv).1)
      else
        match conv.data with
        | .error errno => some (.error (errorCode errno))
        | .ok values => some (.int (be16ToCpu values i).toInt) := by
  have hi := i.isLt
  have hrange : 0 ≤ (i.val : Int) ∧ (i.val : Int) < 3 := by omega
  simp only [hmc5843ReadMeasurement]
  by_cases hneg : (hmc5843WaitMeasurement conv).1 < 0
  · rw [if_pos hneg, if_pos hneg]
  · rw [if_neg hneg, if_neg hneg]
    cases conv.data with
    | error errno => rfl
    | ok values =>
      simp only [hrange, and_self, dite_true, Int.toNat_natCast, Fin.eta, signExtend32_setWidth]

/-- A raw read of an axis answers a number exactly when the chip is ready within 150 status
reads and its data can be read; the number is then the one that the two bytes of the axis
write as big-endian two's complement. -/
theorem hmc5843_raw_read_iff {id : Ids} {chan : ChanSpec}
    (hc : chan ∈ (hmc5843ChipInfoTbl id).channels) (hraw : .raw ∈ chan.infoMask) (bus : Bus)
    (conv : Conversion) (data : Hmc5843Data) :
    ∃ i : Fin 3, chan.scanIndex = i.val ∧
      ∀ v, hmc5843ReadRaw bus conv chan .raw data = some (.int v) ↔
        (∃ k < 150, Awaited dataReady conv.status k) ∧ -32768 ≤ v ∧ v < 32768 ∧
          ∃ values, conv.data = .ok values ∧
            ((256 * values[2 * i.val].toNat + values[2 * i.val + 1].toNat : Nat) : Int) =
              v % 65536 := by
  obtain ⟨i, hi⟩ := scanIndex_of_raw hc hraw
  refine ⟨i, hi, fun v => ?_⟩
  rw [hmc5843ReadRaw, hi, hmc5843ReadMeasurement_eq, ← hmc5843WaitMeasurement_iff]
  by_cases hneg : (hmc5843WaitMeasurement conv).1 < 0
  · simp [hneg]
  · rw [if_neg hneg]
    cases hdata : conv.data with
    | error errno => simp
    | ok values =>
      simp only [Option.some.injEq, Answer.int.injEq, toInt_eq_iff, be16ToCpu_toNat, hneg,
        not_false_eq_true, true_and, Except.ok.injEq, exists_eq_left']

/-- The second axis of a chip that is ready at once. -/
theorem hmc5843_raw_read_iff_ready :
    hmc5843ReadRaw .ok ⟨fun _ => .ok 1, .ok #v[0, 1, 0xff, 0xfe, 0, 3]⟩ (channel .z 1) .raw
      ⟨.hmc5883l, fun _ => 0⟩ = some (.int (-2)) := by
  have hc : channel .z 1 ∈ (hmc5843ChipInfoTbl .hmc5883l).channels := by decide
  obtain ⟨i, hi, hread⟩ := hmc5843_raw_read_iff hc (by decide) .ok
    ⟨fun _ => .ok 1, .ok #v[0, 1, 0xff, 0xfe, 0, 3]⟩ ⟨.hmc5883l, fun _ => 0⟩
  obtain rfl : i = 1 := by
    have hone : (1 : Int) = i.val := hi
    omega
  exact (hread (-2)).mpr ⟨⟨0, by decide, ⟨by simp, 1, rfl, rfl⟩⟩, by decide, by decide, _, rfl,
    by decide⟩

/-- The trigger handler pushes the values that raw reads of the same measurement answer: for
every axis, the consumer decodes from the buffer what the reader is given. When the reader
is given an error nothing is pushed. The trigger is told in every case, once and at the end. -/
theorem hmc5843_trigger_agrees {id : Ids} {chan : ChanSpec}
    (hc : chan ∈ (hmc5843ChipInfoTbl id).channels) (hraw : .raw ∈ chan.infoMask) (bus : Bus)
    (conv : Conversion) (data : Hmc5843Data) :
    (∃ i : Fin 3, chan.scanIndex = i.val ∧
      ∀ v, hmc5843ReadRaw bus conv chan .raw data = some (.int v) ↔
        ∃ buffer, hmc5843TriggerHandler conv = [.pushToBuffers buffer, .notifyDone] ∧
          axisScanType.decode (scanElement buffer i) = v) ∧
    ((∃ ret, hmc5843ReadRaw bus conv chan .raw data = some (.error ret)) ↔
      hmc5843TriggerHandler conv = [.notifyDone]) ∧
    ∃ before, hmc5843TriggerHandler conv = before ++ [.notifyDone] ∧ .notifyDone ∉ before := by
  obtain ⟨i, hi⟩ := scanIndex_of_raw hc hraw
  simp only [hmc5843ReadRaw, hi, hmc5843ReadMeasurement_eq, hmc5843TriggerHandler]
  by_cases hneg : (hmc5843WaitMeasurement conv).1 < 0
  · refine ⟨⟨i, rfl, fun v => ?_⟩, ?_, [], ?_⟩ <;> simp [hneg]
  · simp only [if_neg hneg]
    cases conv.data with
    | error errno => refine ⟨⟨i, rfl, fun v => ?_⟩, ?_, [], ?_⟩ <;> simp
    | ok values =>
      refine ⟨⟨i, rfl, fun v => ?_⟩, ?_, [.pushToBuffers values], ?_⟩ <;>
        simp [decode_scanElement]

/-- A chip whose status cannot be read gives an error to the reader and nothing to the buffer. -/
theorem hmc5843_trigger_agrees_error :
    hmc5843TriggerHandler ⟨fun _ => .error 120, .ok #v[0, 1, 0, 2, 0, 3]⟩ = [.notifyDone] := by
  have hc : channel .z 1 ∈ (hmc5843ChipInfoTbl .hmc5883l).channels := by decide
  exact (hmc5843_trigger_agrees hc (by decide) .ok
    ⟨fun _ => .error 120, .ok #v[0, 1, 0, 2, 0, 3]⟩ ⟨.hmc5883l, fun _ => 0⟩).2.1.mp
    ⟨errorCode 120, by decide⟩

end OsCourseLabs.Iio.Hmc5843
