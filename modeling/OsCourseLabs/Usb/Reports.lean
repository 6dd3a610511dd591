import OsCourseLabs.Usb.Cleanup

/-!
# What a read delivers

A read asks for as many bytes as endpoint and user allow, copies ten bytes out of the input
buffer, and hands on as many bytes of that copy as the device sent. The three lengths agree
only for packets of ten bytes at least and reports of ten bytes at most.
-/

namespace OsCourseLabs.Usb

open Transition

/-- Bytes read from the start of an object, by the `memcpy` or by the copy to user space. -/
inductive Access where
  | intInBuffer (bytes : Nat)
  | temp (bytes : Nat)
  deriving DecidableEq, Repr

/-- What a read returns and delivers, and what it reads on the way. -/
structure ReadOutcome where
  retval : Int
  delivered : List UInt8
  accesses : List Access
  deriving DecidableEq, Repr

/-- `stm32leds_read` as one function of its request and the input buffer before it. -/
def stm32ledsRead (cfg : Config) (q : ReadRequest) (buffer : List UInt8) : ReadOutcome :=
  let temp := tempOf cfg (q.received buffer)
  if q.ret ≠ 0 then ⟨q.ret, [], [.intInBuffer 10]⟩
  else if q.userOk then
    ⟨q.report.length, q.delivered cfg temp, [.intInBuffer 10, .temp q.report.length]⟩
  else ⟨-EFAULT, [], [.intInBuffer 10, .temp q.report.length]⟩

/-- The access stays inside its object. -/
def Access.InBounds (cfg : Config) : Access → Prop
  | .intInBuffer bytes => bytes ≤ cfg.intInSize
  | .temp bytes => bytes ≤ 10

/-- The read delivers exactly the report or returns the error of the transfer, in bounds. -/
structure DeliversReport (cfg : Config) (q : ReadRequest) (r : ReadOutcome) : Prop where
  success : q.ret = 0 → q.userOk = true →
    r.retval = q.report.length ∧ r.delivered = q.report
  error : q.ret ≠ 0 → r.retval = q.ret ∧ r.delivered = []
  inBounds : ∀ access ∈ r.accesses, access.InBounds cfg

/-- One step of a read with nothing else going on, and the events so far. -/
def ReadRequest.stepAlone (cfg : Config) (c : Nat) (q : ReadRequest)
    (s : Shared × ReadPc × List Event) (_ : Unit) : Option (Shared × ReadPc × List Event) :=
  (q.next cfg c s.1 s.2.1).map fun r => (r.1, r.2.1, s.2.2 ++ r.2.2)

/-- A read that no other call interrupts returns and delivers what the function says. -/
theorem ReadRequest.alone (cfg : Config) (c : Nat) (q : ReadRequest) (buffer : List UInt8)
    (urbs : List Nat) :
    exec (q.stepAlone cfg c) (⟨none, buffer, urbs⟩, .lock, []) (List.replicate 5 ()) =
      some (⟨none, q.received buffer, urbs⟩, .returned (stm32ledsRead cfg q buffer).retval,
        .interruptMsg q.report q.ret ::
          if q.ret = 0 ∧ q.userOk = true then [.deliver (stm32ledsRead cfg q buffer).delivered]
          else []) := by
  have hcopy : exec (q.stepAlone cfg c) (⟨none, buffer, urbs⟩, .lock, []) (List.replicate 5 ()) =
      q.stepAlone cfg c (⟨none, q.received buffer, urbs⟩,
        .finish (tempOf cfg (q.received buffer)), [.interruptMsg q.report q.ret]) () := by
    simp [exec, stepAlone, next, List.replicate]
  rw [hcopy]
  by_cases hr : q.ret = 0
  · by_cases hu : q.userOk = true <;> simp [stepAlone, next, stm32ledsRead, hr, hu]
  · simp [stepAlone, next, stm32ledsRead, hr]

/-- A report of ten bytes at most comes through both copies. -/
theorem ReadRequest.delivered_received {q : ReadRequest} (h : q.report.length ≤ 10) (cfg : Config)
    (buffer : List UInt8) : q.delivered cfg (tempOf cfg (q.received buffer)) = q.report := by
  apply delivered_of_take
  rw [tempOf, received, List.append_assoc, List.take_take, Nat.min_eq_left h, List.take_left]

/-- A read accesses `int_in_buffer`, and `temp` where it has a report to copy. -/
theorem stm32ledsRead_accesses (cfg : Config) (q : ReadRequest) (buffer : List UInt8) :
    (stm32ledsRead cfg q buffer).accesses =
      if q.ret ≠ 0 then [.intInBuffer 10] else [.intInBuffer 10, .temp q.report.length] := by
  unfold stm32ledsRead
  split
  · rfl
  · split <;> rfl

/-- A read delivers its report in bounds exactly when the endpoint has packets of ten bytes at
least, and the device sent ten bytes at most where the transfer succeeds. -/
theorem stm32ledsRead_deliversReport_iff (cfg : Config) (q : ReadRequest) (buffer : List UInt8) :
    DeliversReport cfg q (stm32ledsRead cfg q buffer) ↔
      10 ≤ cfg.intInSize ∧ (q.ret = 0 → q.report.length ≤ 10) := by
  constructor
  · intro h
    have hbounds := h.inBounds
    rw [stm32ledsRead_accesses] at hbounds
    constructor
    · apply hbounds (.intInBuffer 10)
      split <;> exact List.mem_cons_self
    · intro hr
      rw [if_neg (not_not.mpr hr)] at hbounds
      exact hbounds (.temp q.report.length) (by simp)
  · rintro ⟨hsize, hshort⟩
    constructor
    case success =>
      intro hr hu
      simp only [stm32ledsRead, hr, ne_eq, not_true_eq_false, ite_false, hu, ite_true, true_and]
      exact q.delivered_received (hshort hr) cfg buffer
    case error =>
      intro hr
      rw [stm32ledsRead, if_pos hr]
      exact ⟨rfl, rfl⟩
    case inBounds =>
      rw [stm32ledsRead_accesses]
      split
      · exact List.forall_mem_singleton.mpr hsize
      · rename_i hr
        have htemp : q.report.length ≤ 10 := hshort (not_not.mp hr)
        intro access hm
        rcases List.mem_cons.mp hm with rfl | hm
        · exact hsize
        · rw [List.mem_singleton.mp hm]
          exact htemp

/-- An interface whose interrupt endpoints have packets of the given size. -/
def packetsOf (size : UInt16) : Interface :=
  ⟨0, [⟨0x81, 0x03, size, 20⟩, ⟨0x01, 0x03, 10, 20⟩], none, false⟩

/-- Packets of twelve bytes are accepted, and the last two bytes delivered come from the stack
behind the copy; packets of eight bytes are accepted, and ten are read out of eight. -/
theorem packets_of_twelve_and_eight :
    (stm32ledsProbe .smooth (packetsOf 12)).retval = 0 ∧
    (stm32ledsRead ⟨12, [], [7, 7], false⟩ ⟨12, 0, List.replicate 12 1, true⟩
      (List.replicate 12 0)).delivered = List.replicate 10 1 ++ [7, 7] ∧
    ¬ DeliversReport ⟨12, [], [7, 7], false⟩ ⟨12, 0, List.replicate 12 1, true⟩
      (stm32ledsRead ⟨12, [], [7, 7], false⟩ ⟨12, 0, List.replicate 12 1, true⟩
        (List.replicate 12 0)) ∧
    (stm32ledsProbe .smooth (packetsOf 8)).retval = 0 ∧
    ¬ DeliversReport ⟨8, [7, 7], [], false⟩ ⟨8, 0, List.replicate 8 1, true⟩
      (stm32ledsRead ⟨8, [7, 7], [], false⟩ ⟨8, 0, List.replicate 8 1, true⟩
        (List.replicate 8 0)) := by
  refine ⟨by decide, by decide, fun h => ?_, by decide, fun h => ?_⟩
  · have hd := (h.success rfl rfl).2
    exact absurd hd (by decide)
  · have hb : 10 ≤ 8 := h.inBounds (.intInBuffer 10) (by decide)
    exact absurd hb (by decide)

end OsCourseLabs.Usb
