import OsCourseLabs.Core.Polling
import OsCourseLabs.Core.Errno
import OsCourseLabs.Iio.Channel

/-!
# The VL53L0X ranging sensor

A distance is read in three steps on the bus: start a single shot, poll the range status at
most 20 times, read the result block. The loop tests at its end, with a counter that reaches
zero when the tries are used up.
-/

namespace OsCourseLabs.Iio.Vl53l0x

open Polling

/-- A one written here starts a measurement. -/
def VL_REG_SYSRANGE_START : BitVec 8 := 0x00

/-- The first register of the result, which tells its status. -/
def VL_REG_RESULT_RANGE_STATUS : BitVec 8 := 0x14

/-- The bit of the status that says the result is there. -/
def VL_REG_RESULT_RANGE_STATUS_COMPLETE : BitVec 8 := 0x01

/-- A transaction on the bus. -/
inductive Transaction where
  | writeByteData (reg val : BitVec 8)
  | readByteData (reg : BitVec 8)
  | readI2cBlockData (reg : BitVec 8) (len : Nat)
  deriving DecidableEq, Repr

/-- What the sensor answers during one measurement. Of the block it may deliver fewer bytes
than asked for; the rest of the buffer is then not initialised. -/
structure Ranging where
  start : Except Nat Unit
  status : Nat → Except Nat (BitVec 8)
  block : Except Nat (Nat × Vector (BitVec 8) 12)

/-- The loop of `vl53l0x_read_proximity` with the value of `tries`: the value that it leaves with,
or the error it returns, and the number of the next status read. -/
def statusLoop (status : Nat → Except Nat (BitVec 8)) : (tries i : Nat) → Except Int Nat × Nat
  | 0, i => (.ok 0, i)
  | tries + 1, i =>
    match status i with
    | .error errno => (.error (errorCode errno), i + 1)
    | .ok ret =>
      if ret &&& VL_REG_RESULT_RANGE_STATUS_COMPLETE ≠ 0 then (.ok (tries + 1), i + 1)
      else statusLoop status tries (i + 1)

/-- The last step: read the block and take the distance from it. -/
def readResult (r : Ranging) : Answer :=
  match r.block with
  | .error errno => .error (errorCode errno)
  | .ok (ret, buffer) =>
    if ret ≠ 12 then .error (- EREMOTEIO)
    else .int (buffer[10].toNat <<< 8 + buffer[11].toNat : Nat)

/-- What follows the loop, with the transactions so far. -/
def afterLoop (r : Ranging) (sent : List Transaction) : Except Int Nat →
    Answer × List Transaction
  | .error ret => (.error ret, sent)
  | .ok 0 => (.error (-ETIMEDOUT), sent)
  | .ok (_ + 1) => (readResult r, sent ++ [.readI2cBlockData VL_REG_RESULT_RANGE_STATUS 12])

/-- `vl53l0x_read_proximity`: start, wait for the result and read it, up to the first error. -/
def vl53l0xReadProximity (r : Ranging) : Answer × List Transaction :=
  let sent := [.writeByteData VL_REG_SYSRANGE_START 1]
  match r.start with
  | .error errno => (.error (errorCode errno), sent)
  | .ok _ =>
    let (left, reads) := statusLoop r.status 20 0
    afterLoop r (sent ++ List.replicate reads (.readByteData VL_REG_RESULT_RANGE_STATUS)) left

/-- `vl53l0x_read_raw`: only the distance is there to read. -/
def vl53l0xReadRaw (r : Ranging) (chan : ChanSpec) (mask : ChanInfo) : Answer × List Transaction :=
  if chan.type ≠ .distance then (.error (-EINVAL), [])
  else
    match mask with
    | .raw => vl53l0xReadProximity r
    | .scale => (.intPlusMicro 0 1000, [])
    | _ => (.error (-EINVAL), [])

/-- The status shows that the measurement is complete. -/
def complete (ret : BitVec 8) : Bool := ret &&& VL_REG_RESULT_RANGE_STATUS_COMPLETE ≠ 0

/-- How the loop is left: with an error, or with a counter that is zero when the poll expired. -/
inductive LoopEnds : Option (Except Nat Unit) → Except Int Nat → Prop
  | complete {tries} : LoopEnds (some (.ok ())) (.ok (tries + 1))
  | failed {errno} : LoopEnds (some (.error errno)) (.error (errorCode errno))
  | expired : LoopEnds none (.ok 0)

/-- The loop is a bounded poll of the status. -/
theorem statusLoop_poll (status : Nat → Except Nat (BitVec 8)) (tries i : Nat) :
    LoopEnds (poll (statusAnswer complete status) tries i).1 (statusLoop status tries i).1 ∧
      (statusLoop status tries i).2 = (poll (statusAnswer complete status) tries i).2 := by
  induction tries generalizing i with
  | zero => exact ⟨.expired, rfl⟩
  | succ tries ih =>
    rw [statusLoop, poll, statusAnswer]
    cases status i with
    | error errno => exact ⟨.failed, rfl⟩
    | ok ret =>
      by_cases hdone : ret &&& VL_REG_RESULT_RANGE_STATUS_COMPLETE ≠ 0
      · have hc : complete ret = true := by simpa [complete] using hdone
        simp only [if_pos hdone, hc, ite_true]
        exact ⟨.complete, trivial⟩
      · have hc : complete ret = false := by simpa [complete] using hdone
        simp only [if_neg hdone, hc]
        exact ih (i + 1)

/-- The transactions of a measurement up to `n` status reads. -/
def traffic (n : Nat) : List Transaction :=
  .writeByteData VL_REG_SYSRANGE_START 1 ::
    List.replicate n (.readByteData VL_REG_RESULT_RANGE_STATUS)

/-- A measurement is not started, or is complete in time, or ends with an error. -/
theorem vl53l0xReadProximity_cases (r : Ranging) :
    (∃ errno, r.start = .error errno ∧
      vl53l0xReadProximity r = (.error (errorCode errno), traffic 0)) ∨
    (r.start = .ok () ∧ ∃ k < 20, Awaited complete r.status k ∧
      vl53l0xReadProximity r =
        (readResult r, traffic (k + 1) ++ [.readI2cBlockData VL_REG_RESULT_RANGE_STATUS 12])) ∨
    (r.start = .ok () ∧ ¬ (∃ k < 20, Awaited complete r.status k) ∧
      ∃ ret, ∃ n ≤ 20, vl53l0xReadProximity r = (.error ret, traffic n)) := by
  cases hstart : r.start with
  | error errno => exact Or.inl ⟨errno, rfl, by simp [vl53l0xReadProximity, hstart, traffic]⟩
  | ok u =>
    right
    obtain ⟨hends, hreads⟩ := statusLoop_poll r.status 20 0
    have hloop : vl53l0xReadProximity r =
        afterLoop r (traffic (statusLoop r.status 20 0).2) (statusLoop r.status 20 0).1 := by
      rw [vl53l0xReadProximity, hstart]
      rfl
    rw [hloop, hreads]
    rcases poll_status_cases complete r.status 20 with
      ⟨k, hk, h, hp⟩ | ⟨hnot, ⟨e, k, hk, hp⟩ | hp⟩ <;> rw [hp] at hends ⊢
    · left
      generalize (statusLoop r.status 20 0).1 = left at hends ⊢
      cases hends
      exact ⟨rfl, k, hk, h, rfl⟩
    · right
      generalize (statusLoop r.status 20 0).1 = left at hends ⊢
      cases hends
      exact ⟨rfl, hnot, errorCode e, k + 1, hk, rfl⟩
    · right
      generalize (statusLoop r.status 20 0).1 = left at hends ⊢
      cases hends
      exact ⟨rfl, hnot, -ETIMEDOUT, 20, Nat.le_refl 20, rfl⟩

/-- The result is the last two bytes of a block that was read whole. -/
theorem readResult_eq_int_iff (r : Ranging) (v : Int) :
    readResult r = .int v ↔ ∃ buffer, r.block = .ok (12, buffer) ∧
      v = (256 * buffer[10].toNat + buffer[11].toNat : Nat) := by
  unfold readResult
  cases r.block with
  | error errno => simp
  | ok answer =>
    obtain ⟨ret, buffer⟩ := answer
    by_cases hret : ret = 12
    · subst hret
      simp [Nat.shiftLeft_eq, Nat.mul_comm, eq_comm]
    · simp [hret]

/-- A raw read answers a distance exactly when the start gets through, one of the first 20
status reads is the first that shows the measurement complete, and the block arrives whole;
the distance is then the big-endian number in its last two bytes. The bus sees one start and
at most 20 status reads, and the block is read only after a complete status. -/
theorem vl53l0x_raw_read (r : Ranging) {chan : ChanSpec} (hc : chan.type = .distance) :
    (∀ v, (vl53l0xReadRaw r chan .raw).1 = .int v ↔
      r.start = .ok () ∧ (∃ k < 20, Awaited complete r.status k) ∧
        ∃ buffer, r.block = .ok (12, buffer) ∧
          v = (256 * buffer[10].toNat + buffer[11].toNat : Nat)) ∧
    ((∃ n ≤ 20, (vl53l0xReadRaw r chan .raw).2 = traffic n) ∨
      ∃ k < 20, Awaited complete r.status k ∧ (vl53l0xReadRaw r chan .raw).2 =
        traffic (k + 1) ++ [.readI2cBlockData VL_REG_RESULT_RANGE_STATUS 12]) := by
  have hraw : vl53l0xReadRaw r chan .raw = vl53l0xReadProximity r := by
    simp [vl53l0xReadRaw, hc]
  rw [hraw]
  rcases vl53l0xReadProximity_cases r with
    ⟨errno, hstart, hp⟩ | ⟨hstart, k, hk, h, hp⟩ | ⟨hstart, hnot, ret, n, hn, hp⟩ <;>
    rw [hp, hstart]
  · exact ⟨fun v => iff_of_false (by simp) (by simp), Or.inl ⟨0, by decide, rfl⟩⟩
  · refine ⟨fun v => ?_, Or.inr ⟨k, hk, h, rfl⟩⟩
    rw [readResult_eq_int_iff]
    exact ⟨fun hb => ⟨rfl, ⟨k, hk, h⟩, hb⟩, fun hb => hb.2.2⟩
  · exact ⟨fun v => iff_of_false (by simp) fun hb => hnot hb.2.1, Or.inl ⟨n, hn, rfl⟩⟩

/-- `vl53l0x_channels`. -/
def vl53l0xChannel : ChanSpec :=
  { type := .distance, channel := 0, channel2 := .number 0, output := false
    differential := false, scanIndex := 0, infoMask := [.raw, .scale] }

/-- A sensor that is done at once, half a metre from something. -/
theorem vl53l0x_raw_read_complete :
    (vl53l0xReadRaw ⟨.ok (), fun _ => .ok 1, .ok (12, #v[0, 0, 0, 0, 0, 0, 0, 0, 0, 0, 1, 0xf4])⟩
      vl53l0xChannel .raw).1 = .int 500 :=
  ((vl53l0x_raw_read ⟨.ok (), fun _ => .ok 1,
    .ok (12, #v[0, 0, 0, 0, 0, 0, 0, 0, 0, 0, 1, 0xf4])⟩
    (show vl53l0xChannel.type = .distance from rfl)).1 500).mpr
    ⟨rfl, ⟨0, by decide, ⟨by simp, 1, rfl, rfl⟩⟩, _, rfl, by decide⟩

end OsCourseLabs.Iio.Vl53l0x
