import OsCourseLabs.Core.Buffers
import OsCourseLabs.Usb.Options
import OsCourseLabs.Usb.Reports

/-!
# The button count that is printed

`receive_data` takes every answer of `read` that is not negative for a whole frame and
prints the second byte of its buffer. The driver answers the length of the report: for
reports of less than two bytes the byte printed is what was on the stack.
-/

namespace OsCourseLabs.Usb

/-- The read of ten bytes that `receive_data` asks for, with the answers of the USB core. -/
def countRequest (ret : Int) (report : List UInt8) (userOk : Bool) : ReadRequest :=
  ⟨10, ret, report, userOk⟩

/-- `read` of the C library over a read of the driver: errors become -1. -/
def readResult (r : ReadOutcome) (buf : List UInt8) : Int × List UInt8 :=
  (if r.retval < 0 then -1 else r.retval, overwrite buf r.delivered)

/-- What `receive_data` prints over `stm32leds_read`; `buffer` is `int_in_buffer` before the
read, `buf` the uninitialised buffer on the stack. -/
def printedCount (cfg : Config) (signed : Bool) (fd : Int) (q : ReadRequest)
    (buffer buf : List UInt8) : Print :=
  receiveData signed fd (readResult (stm32ledsRead cfg q buffer)) buf

/-- What is printed does not depend on the stack: it is the count byte of the report or an
error. -/
structure DeviceCount (fd : Int) (report : List UInt8) (printed : List UInt8 → Print) :
    Prop where
  same : ∀ buf buf', buf.length = 10 → buf'.length = 10 → printed buf = printed buf'
  reported : ∀ buf, buf.length = 10 →
    (∃ b, report[1]? = some b ∧ printed buf = pressed b.toNat) ∨ printed buf = couldNotRead fd

/-- `us` prints a count or a read error exactly if its options ask for the count and the frame
could be written. -/
theorem usMain_printed {cfg : Config} {q : ReadRequest} {buffer : List UInt8} {w : System}
    {fd : Int} (hfd : w.fd = some fd) (hread : w.read = readResult (stm32ledsRead cfg q buffer))
    (appName : List UInt8) (options : List Char) :
    (usMain appName options w).2.2 = (optionLoop appName options).printed ++
      (sendData fd (w.write (optionLoop appName options).data)).2 ++
      if 0 ≤ w.write (optionLoop appName options).data ∧ 's' ∈ options then
        [printedCount cfg w.signed fd q buffer w.buf]
      else [] := by
  simp only [usMain, hfd, hread, optionLoop_getButtonCounts_iff, sendData, printedCount]

/-- A signed `char` has the value of its byte below 128 only. -/
theorem charValue_eq_iff (signed : Bool) (b : UInt8) :
    charValue signed b = b.toNat ↔ (signed = true → b < 128) := by
  cases signed with
  | false => simp [charValue]
  | true =>
    have hvalue : charValue true b = if 2 * b.toNat < 2 ^ 8 then (b.toNat : Int)
        else (b.toNat : Int) - (2 ^ 8 : Nat) := BitVec.toInt_eq_toNat_cond b.toBitVec
    have hlt : b < 128 ↔ b.toNat < 128 := UInt8.lt_iff_toNat_lt
    rw [hvalue, hlt, eq_self, true_imp_iff]
    by_cases h : 2 * b.toNat < 2 ^ 8
    · rw [if_pos h]
      exact iff_of_true rfl (by omega)
    · rw [if_neg h]
      exact iff_of_false (by omega) (by omega)

/-- An error is printed, or the second byte of the buffer that the read left. -/
theorem printedCount_eq {ret : Int} {report : List UInt8} (hlen : report.length ≤ 10)
    (cfg : Config) (signed : Bool) (fd : Int) (userOk : Bool) (buffer buf : List UInt8) :
    printedCount cfg signed fd (countRequest ret report userOk) buffer buf =
      if ret < 0 ∨ ret = 0 ∧ userOk = false then couldNotRead fd
      else pressed (charValue signed
        ((overwrite buf (if ret = 0 then report else [])).getD 1 0)) := by
  have hdelivered := ReadRequest.delivered_received (q := countRequest ret report userOk) hlen cfg
    buffer
  have hfault : (-EFAULT : Int) < 0 := by decide
  by_cases hz : ret = 0
  · subst ret
    cases userOk with
    | true =>
      have hread : stm32ledsRead cfg (countRequest 0 report true) buffer =
          ⟨report.length, report, [.intInBuffer 10, .temp report.length]⟩ := by
        simp only [stm32ledsRead, hdelivered]
        rfl
      have hnonneg : ¬ (report.length : Int) < 0 := by omega
      simp only [printedCount, receiveData, readResult, hread, hnonneg, ite_false, Int.lt_irrefl,
        Bool.true_eq_false, and_false, or_false, ite_true]
    | false =>
      have hread : stm32ledsRead cfg (countRequest 0 report false) buffer =
          ⟨-EFAULT, [], [.intInBuffer 10, .temp report.length]⟩ := rfl
      simp only [printedCount, receiveData, readResult, hread, hfault, ite_true, and_self, or_true]
      rfl
  · have hread : stm32ledsRead cfg (countRequest ret report userOk) buffer =
        ⟨ret, [], [.intInBuffer 10]⟩ := if_pos hz
    by_cases hneg : ret < 0
    · simp only [printedCount, receiveData, readResult, hread, hneg, ite_true, true_or]
      rfl
    · simp only [printedCount, receiveData, readResult, hread, hneg, hz, ite_false, false_and,
        or_self]

/-- Where no second byte was delivered, the one of the stack is printed. -/
theorem printedCount_stack {ret : Int} {report : List UInt8} (hlen : report.length ≤ 10)
    (hshort : ret = 0 → report.length ≤ 1) {userOk : Bool}
    (hread : ¬ (ret < 0 ∨ ret = 0 ∧ userOk = false)) (cfg : Config) (signed : Bool) (fd : Int)
    (buffer buf : List UInt8) :
    printedCount cfg signed fd (countRequest ret report userOk) buffer buf =
      pressed (charValue signed (buf.getD 1 0)) := by
  have hstored : ¬ 1 < (if ret = 0 then report else []).length := by
    split
    · rename_i hz
      exact Nat.not_lt.mpr (hshort hz)
    · exact Nat.not_lt_zero 1
  rw [printedCount_eq hlen, if_neg hread, List.getD_eq_getElem?_getD, getElem?_overwrite,
    if_neg hstored, ← List.getD_eq_getElem?_getD]

/-- The second byte of a report that comes through is printed. -/
theorem printedCount_byte {report : List UInt8} (hlen : report.length ≤ 10) {b : UInt8}
    (hb : report[1]? = some b) (cfg : Config) (signed : Bool) (fd : Int)
    (buffer buf : List UInt8) :
    printedCount cfg signed fd (countRequest 0 report true) buffer buf =
      pressed (charValue signed b) := by
  have hstored : 1 < report.length := (List.getElem?_eq_some_iff.mp hb).1
  rw [printedCount_eq hlen, if_neg (by decide), if_pos rfl, List.getD_eq_getElem?_getD,
    getElem?_overwrite, if_pos hstored, hb]
  rfl

theorem DeviceCount.of_error {fd : Int} {report : List UInt8} {printed : List UInt8 → Print}
    (h : ∀ buf, printed buf = couldNotRead fd) : DeviceCount fd report printed := by
  constructor
  · intro buf buf' _ _
    rw [h, h]
  · intro buf _
    exact Or.inr (h buf)

/-- A program that prints the stack does not print the count of the device. -/
theorem DeviceCount.not_of_stack {fd : Int} {report : List UInt8} {signed : Bool}
    {printed : List UInt8 → Print}
    (h : ∀ buf, printed buf = pressed (charValue signed (buf.getD 1 0))) :
    ¬ DeviceCount fd report printed := by
  intro hd
  have hsame := hd.same (List.replicate 10 0) (List.replicate 10 1) rfl rfl
  rw [h, h] at hsame
  cases signed <;> exact absurd hsame (by decide)

/-- A program that prints the second byte as a `char` prints the count of the device where
the `char` has the value of the byte. -/
theorem deviceCount_iff_of_byte {fd : Int} {report : List UInt8} {signed : Bool} {b : UInt8}
    {printed : List UInt8 → Print} (hb : report[1]? = some b)
    (h : ∀ buf, printed buf = pressed (charValue signed b)) :
    DeviceCount fd report printed ↔ (signed = true → b < 128) := by
  rw [← charValue_eq_iff]
  constructor
  · intro hd
    rcases hd.reported (List.replicate 10 0) rfl with ⟨b', hb', hp⟩ | hp
    · rw [hb, Option.some.injEq] at hb'
      rw [h, pressed, pressed, ← hb'] at hp
      simpa using hp
    · rw [h, pressed, couldNotRead] at hp
      simp at hp
  · intro hvalue
    constructor
    · intro buf buf' _ _
      rw [h, h]
    · intro buf _
      refine Or.inl ⟨b, hb, ?_⟩
      rw [h, hvalue]

/-- `us` prints the count of the device exactly when the read is answered by an error, or the
report has a second byte, and one below 128 where `char` is signed. -/
theorem printedCount_deviceCount_iff {report : List UInt8} (hlen : report.length ≤ 10)
    (cfg : Config) (signed : Bool) (fd ret : Int) (userOk : Bool) (buffer : List UInt8) :
    DeviceCount fd report (printedCount cfg signed fd (countRequest ret report userOk) buffer) ↔
      ret < 0 ∨ ret = 0 ∧ (userOk = false ∨
        ∃ b, report[1]? = some b ∧ (signed = true → b < 128)) := by
  by_cases herror : ret < 0 ∨ ret = 0 ∧ userOk = false
  · refine iff_of_true (DeviceCount.of_error fun buf => ?_) ?_
    · rw [printedCount_eq hlen, if_pos herror]
    · exact herror.imp id fun h => ⟨h.1, Or.inl h.2⟩
  have hneg : ¬ ret < 0 := fun h => herror (Or.inl h)
  rw [or_iff_right hneg]
  by_cases hz : ret = 0
  swap
  · have hstack := printedCount_stack hlen (fun h => absurd h hz) herror cfg signed fd buffer
    exact iff_of_false (DeviceCount.not_of_stack hstack) fun h => hz h.1
  subst ret
  have hu : userOk = true := by
    cases userOk with
    | true => rfl
    | false => exact absurd (Or.inr ⟨rfl, rfl⟩) herror
  subst userOk
  cases hb : report[1]? with
  | none =>
    have hshort : report.length ≤ 1 := List.getElem?_eq_none_iff.mp hb
    have hstack := printedCount_stack hlen (fun _ => hshort) herror cfg signed fd buffer
    exact iff_of_false (DeviceCount.not_of_stack hstack) (by simp)
  | some b =>
    rw [deviceCount_iff_of_byte hb (printedCount_byte hlen hb cfg signed fd buffer)]
    simp

/-- The theorem applies to a report of two bytes. -/
theorem printedCount_deviceCount_iff_two :
    DeviceCount 3 [9, 7]
      (printedCount .tenBytes false 3 (countRequest 0 [9, 7] true) (List.replicate 10 0)) :=
  (printedCount_deviceCount_iff (by decide) .tenBytes false 3 0 true (List.replicate 10 0)).mpr
    (Or.inr ⟨rfl, Or.inr ⟨7, rfl, fun _ => by decide⟩⟩)

/-- After a report of one byte the count printed is what was on the stack. -/
theorem count_of_stack :
    printedCount .tenBytes false 3 (countRequest 0 [9] true) (List.replicate 10 0)
      (List.replicate 10 4) = pressed 4 ∧
    printedCount .tenBytes false 3 (countRequest 0 [9] true) (List.replicate 10 0)
      (List.replicate 10 5) = pressed 5 ∧
    ¬ DeviceCount 3 [9]
      (printedCount .tenBytes false 3 (countRequest 0 [9] true) (List.replicate 10 0)) := by
  have hstack := printedCount_stack (by decide : [(9 : UInt8)].length ≤ 10) (fun _ => by decide)
    (by decide : ¬ ((0 : Int) < 0 ∨ (0 : Int) = 0 ∧ true = false)) .tenBytes false 3
    (List.replicate 10 0)
  exact ⟨hstack _, hstack _, DeviceCount.not_of_stack hstack⟩

end OsCourseLabs.Usb
