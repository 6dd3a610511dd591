import OsCourseLabs.Core.Errno
import Mathlib.Tactic.Common

/-!
# Reads and writes of the USB driver

`stm32leds_read` and `stm32leds_write` as sequences of atomic steps on what the calls on
one device share: the mutex, the input buffer and the URBs in flight. What the USB core
and user space answer is part of the request. A write is also given as one function of
its request, against which its steps are checked.
-/

namespace OsCourseLabs.Usb

/-- What stays fixed while a device is bound, and the build of the driver. -/
structure Config where
  intInSize : Nat
  /-- Bytes behind `int_in_buffer` in the heap. -/
  heap : List UInt8
  /-- Bytes behind `temp` on the stack of a read. -/
  stack : List UInt8
  /-- Whether `dev_dbg` is compiled in. -/
  debug : Bool
  deriving DecidableEq, Repr

/-- What the calls on one device share. -/
structure Shared where
  /-- The call that owns the mutex. -/
  sysfslock : Option Nat
  intInBuffer : List UInt8
  /-- Calls whose URB is accepted and not completed. -/
  urbs : List Nat
  deriving DecidableEq, Repr

/-- A visible action of one call. -/
inductive Event where
  | interruptMsg (report : List UInt8) (ret : Int)
  | deliver (bytes : List UInt8)
  | useInterface
  | allocUrb
  | allocCoherent
  | submitUrb (data : List UInt8) (ret : Int)
  /-- The DMA address is read from the URB. -/
  | readUrb
  | freeCoherent
  | freeUrb
  | kfree
  deriving DecidableEq, Repr

/-- A read: what `usb_interrupt_msg` answers and stores, and whether the user copy succeeds. -/
structure ReadRequest where
  count : Nat
  ret : Int
  report : List UInt8
  userOk : Bool
  deriving DecidableEq, Repr

/-- A write: the readable bytes at the user address and the answers of the USB core. -/
structure WriteRequest where
  count : Nat
  payload : List UInt8
  urbOk : Bool
  coherentOk : Bool
  submit : Int
  deriving DecidableEq, Repr

/-- The next step of a read; `temp` is what the copy took. -/
inductive ReadPc where
  | lock
  | transfer
  | unlock
  | copy
  | finish (temp : List UInt8)
  | returned (r : Int)
  deriving DecidableEq, Repr

/-- The next step of a write; `error` knows whether `buf` was allocated. A call that `crashed` has
read through NULL or handed `kfree` memory that is not its own: it does not return. -/
inductive WritePc where
  | start
  | allocUrb
  | allocCoherent
  | copy
  | lock
  | submit
  | unlock
  | freeUrb
  | error (buf : Bool) (retval : Int)
  | returned (r : Int)
  | crashed
  deriving DecidableEq, Repr

/-- The bytes of the report that the transfer asks for. -/
def ReadRequest.room (cfg : Config) (q : ReadRequest) : Nat := min cfg.intInSize q.count

/-- The transfer overwrites the start of `int_in_buffer`. -/
def ReadRequest.received (q : ReadRequest) (buffer : List UInt8) : List UInt8 :=
  q.report ++ buffer.drop q.report.length

/-- The ten bytes of `temp`, read past the end of a shorter buffer. -/
def tempOf (cfg : Config) (buffer : List UInt8) : List UInt8 := (buffer ++ cfg.heap).take 10

/-- What `raw_copy_to_user` takes from `temp`, reading past its end for longer reports. -/
def ReadRequest.delivered (cfg : Config) (q : ReadRequest) (temp : List UInt8) : List UInt8 :=
  (temp ++ cfg.stack).take q.report.length

/-- One step of `stm32leds_read` as call `c`; the mutex blocks. -/
def ReadRequest.next (cfg : Config) (c : Nat) (q : ReadRequest) (sh : Shared) :
    ReadPc → Option (Shared × ReadPc × List Event)
  | .lock =>
    if sh.sysfslock = none then some ({ sh with sysfslock := some c }, .transfer, []) else none
  | .transfer =>
    some ({ sh with intInBuffer := q.received sh.intInBuffer }, .unlock,
      [.interruptMsg q.report q.ret])
  | .unlock => some ({ sh with sysfslock := none }, .copy, [])
  | .copy => some (sh, .finish (tempOf cfg sh.intInBuffer), [])
  | .finish temp =>
    if q.ret ≠ 0 then some (sh, .returned q.ret, [])
    else if q.userOk then
      some (sh, .returned q.report.length, [.deliver (q.delivered cfg temp)])
    else some (sh, .returned (-EFAULT), [])
  | .returned _ => none

/-- `dev_dbg` on `dev->interface`, where it is compiled in. -/
def devDbg (cfg : Config) : List Event := if cfg.debug then [.useInterface] else []

/-- The bytes that the URB carries. -/
def WriteRequest.data (q : WriteRequest) : List UInt8 := q.payload.take q.count

/-- The clean-up at the label `error` with a URB in hand; freeing a NULL buffer does nothing. -/
def cleanup (buf : Bool) : List Event :=
  if buf then [.freeCoherent, .freeUrb, .kfree] else [.readUrb, .freeUrb]

/-- One step of `stm32leds_write` as call `c`. The label `error` does not return where there is no
URB, and not where there is a buffer: `kfree` gets coherent memory that was given back before. -/
def WriteRequest.next (cfg : Config) (c : Nat) (q : WriteRequest) (sh : Shared) :
    WritePc → Option (Shared × WritePc × List Event)
  | .start =>
    if q.count = 0 then some (sh, .returned 0, [])
    else if q.count ≠ 10 then some (sh, .returned 0, devDbg cfg)
    else some (sh, .allocUrb, [])
  | .allocUrb =>
    if q.urbOk then some (sh, .allocCoherent, [.allocUrb]) else some (sh, .crashed, [.readUrb])
  | .allocCoherent =>
    if q.coherentOk then some (sh, .copy, [.allocCoherent])
    else some (sh, .error false (-ENOMEM), devDbg cfg)
  | .copy =>
    if q.payload.length < q.count then some (sh, .error true (-EFAULT), devDbg cfg)
    else some (sh, .lock, [])
  | .lock =>
    if sh.sysfslock = none then some ({ sh with sysfslock := some c }, .submit, []) else none
  | .submit =>
    some ({ sh with urbs := if q.submit = 0 then sh.urbs ++ [c] else sh.urbs }, .unlock,
      [.submitUrb q.data q.submit])
  | .unlock =>
    some ({ sh with sysfslock := none },
      if q.submit ≠ 0 then .error true q.submit else .freeUrb, [])
  | .freeUrb => some (sh, .returned q.submit, [.freeUrb])
  | .error buf retval => some (sh, if buf then .crashed else .returned retval, cleanup buf)
  | .returned _ | .crashed => none

/-- `stm32leds_write_int_callback`: unlinking is no error, anything else is reported. -/
def stm32ledsWriteIntCallback (cfg : Config) (status : Int) : List Event :=
  (if status ≠ 0 ∧ ¬ (status = -ENOENT ∨ status = -ECONNRESET ∨ status = -ESHUTDOWN) then
    devDbg cfg
  else []) ++ [.freeCoherent]

/-- How a write ends: with a result, or without ever returning. -/
inductive Ending where
  | returned (r : Int)
  | crashed
  deriving DecidableEq, Repr

/-- `stm32leds_write` from `usb_submit_urb` on. -/
def WriteRequest.fromSubmit (q : WriteRequest) : List Event × Ending :=
  if q.submit ≠ 0 then (.submitUrb q.data q.submit :: cleanup true, .crashed)
  else ([.submitUrb q.data q.submit, .freeUrb], .returned q.submit)

/-- `stm32leds_write` from `raw_copy_from_user` on. -/
def WriteRequest.fromCopy (cfg : Config) (q : WriteRequest) : List Event × Ending :=
  if q.payload.length < q.count then (devDbg cfg ++ cleanup true, .crashed)
  else q.fromSubmit

/-- `stm32leds_write` from `usb_alloc_coherent` on. -/
def WriteRequest.fromCoherent (cfg : Config) (q : WriteRequest) : List Event × Ending :=
  if q.coherentOk then (.allocCoherent :: (q.fromCopy cfg).1, (q.fromCopy cfg).2)
  else (devDbg cfg ++ cleanup false, .returned (-ENOMEM))

/-- `stm32leds_write` from `usb_alloc_urb` on. -/
def WriteRequest.fromUrb (cfg : Config) (q : WriteRequest) : List Event × Ending :=
  if q.urbOk then (.allocUrb :: (q.fromCoherent cfg).1, (q.fromCoherent cfg).2)
  else ([.readUrb], .crashed)

/-- `stm32leds_write` as one function: its visible actions and its result. -/
def stm32ledsWrite (cfg : Config) (q : WriteRequest) : List Event × Ending :=
  if q.count = 0 then ([], .returned 0)
  else if q.count ≠ 10 then (devDbg cfg, .returned 0)
  else q.fromUrb cfg

/-- A write of ten bytes that gets its URB and no buffer for it. -/
def WriteRequest.NoBuffer (q : WriteRequest) : Prop :=
  q.count = 10 ∧ q.urbOk = true ∧ q.coherentOk = false

instance (q : WriteRequest) : Decidable q.NoBuffer :=
  inferInstanceAs (Decidable (_ ∧ _ ∧ _))

/-- What a write still does from its next step on. -/
def WriteRequest.remaining (cfg : Config) (q : WriteRequest) : WritePc → List Event × Ending
  | .start => stm32ledsWrite cfg q
  | .allocUrb => q.fromUrb cfg
  | .allocCoherent => q.fromCoherent cfg
  | .copy => q.fromCopy cfg
  | .lock | .submit => q.fromSubmit
  | .unlock =>
    if q.submit ≠ 0 then (cleanup true, .crashed) else ([.freeUrb], .returned q.submit)
  | .freeUrb => ([.freeUrb], .returned q.submit)
  | .error buf retval => (cleanup buf, if buf then .crashed else .returned retval)
  | .returned r => ([], .returned r)
  | .crashed => ([], .crashed)

/-- A copy that starts with the report hands on the report. -/
theorem ReadRequest.delivered_of_take {cfg : Config} {q : ReadRequest} {temp : List UInt8}
    (h : temp.take q.report.length = q.report) : q.delivered cfg temp = q.report := by
  have hlen : q.report.length ≤ temp.length := by
    have hl := congrArg List.length h
    rw [List.length_take] at hl
    omega
  rw [delivered, List.take_append_of_le_length hlen, h]

/-- Every step of a write does the first part of what remains. -/
theorem WriteRequest.next_remaining {cfg : Config} {c : Nat} {q : WriteRequest}
    {sh sh' : Shared} {pc pc' : WritePc} {es : List Event}
    (h : q.next cfg c sh pc = some (sh', pc', es)) :
    q.remaining cfg pc = (es ++ (q.remaining cfg pc').1, (q.remaining cfg pc').2) := by
  cases pc with
  | start =>
    simp only [next] at h
    simp only [remaining, stm32ledsWrite]
    split at h
    · rename_i h0
      cases h
      rw [if_pos h0]
      rfl
    · rename_i h0
      rw [if_neg h0]
      split at h
      · rename_i h10
        cases h
        rw [if_pos h10]
        simp
      · rename_i h10
        cases h
        rw [if_neg h10]
        rfl
  | allocUrb =>
    simp only [next] at h
    split at h <;> cases h <;> simp_all [remaining, fromUrb]
  | allocCoherent =>
    simp only [next] at h
    split at h <;> cases h <;> simp_all [remaining, fromCoherent]
  | copy =>
    simp only [next] at h
    simp only [remaining, fromCopy]
    split at h <;> cases h
    · rename_i hl
      rw [if_pos hl]
      rfl
    · rename_i hl
      rw [if_neg hl]
      rfl
  | lock =>
    simp only [next] at h
    split at h
    · cases h
      rfl
    · cases h
  | submit =>
    cases h
    simp only [remaining, fromSubmit]
    split <;> rfl
  | unlock =>
    cases h
    simp only [remaining]
    split <;> rfl
  | freeUrb =>
    cases h
    rfl
  | error buf retval =>
    cases h
    cases buf <;> rfl
  | returned | crashed => cases h

end OsCourseLabs.Usb
