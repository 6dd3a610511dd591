import OsCourseLabs.Gpio.Kernel
import OsCourseLabs.Gpio.Command
import OsCourseLabs.Core.Transition

/-!
# The GPIO driver: its state and its file operations

The module owns the device-number base, its class and an array of record pointers.
A request comes from the VFS on an open file; the record it works on is the one
found through the cdev at open, the pin it works on is the minor number of the
node. These are two separate ways to say which pin is meant.
-/

namespace OsCourseLabs.Gpio

open Transition

/-- `struct file` as the driver sees it. -/
structure File where
  /-- Device number of the node that was opened. -/
  inode : Nat
  privateData : Option Nat
  fPos : Nat
  deriving DecidableEq, Repr

/-- The kernel, the static variables of the module and the open files. -/
structure Driver where
  kernel : Kernel
  first : Nat
  gpioLkmClass : Ptr
  gpioLkmDevp : Nat → Option Nat
  files : Nat → Option File

/-- The pins that the loop of `gpio_lkm_init` selects. -/
def initGpio (i : Nat) : Bool :=
  i == 4 || i == 17 || i == 18 || i == 27 ||
  i == 22 || i == 23 || i == 24 || i == 25 ||
  i == 5 || i == 6 || i == 13 || i == 12 ||
  i == 16 || i == 26

/-- The selected pins in the order in which the loop meets them. -/
def gpios : List Nat := (List.range (MAX_GPIO_NUMBER + 1)).filter initGpio

/-- Device number of the node created for a pin. -/
def nodeDev (first i : Nat) : Nat := mkdev (major first) (minor first + i)

/-- `gpio_lkm_open` on a node whose number resolved to the cdev in record `a`. -/
def gpioLkmOpen (dev a : Nat) : File := ⟨dev, some a, 0⟩

/-- The loop of `gpio_lkm_read`: the samples still wanted, `retval`, and the bytes stored.
A store past the writable room of the user buffer faults after the sample was taken. -/
def readLoop (gpio : Nat) (sample : Nat → Int) (room : Nat) :
    Nat → Nat → List UInt8 → Kernel → (Nat × List UInt8) × Kernel
  | 0, retval, stored, k => ((retval, stored), k)
  | n + 1, retval, stored, k =>
    let k := gpioGetValue gpio k
    let byte := UInt8.ofInt (48 + sample retval)
    if room ≤ retval then ((retval, stored), k)
    else readLoop gpio sample room n (retval + 1) (stored ++ [byte]) k

/-- `gpio_lkm_read`: the result, the bytes stored to user space, and the kernel after. -/
def gpioLkmRead (f : File) (sample : Nat → Int) (room count : Nat) (k : Kernel) :
    (Nat × List UInt8) × Kernel :=
  readLoop (minor f.inode) sample room count 0 [] k

/-- The switch of `gpio_lkm_write` on a record; the results of the GPIO calls are not read. -/
def runCommand (cmd : Command) (gpio : Nat) (core : Int) (dev : GpioLkmDev) (k : Kernel) :
    Except Int (GpioLkmDev × Kernel) :=
  match cmd with
  | .setIn =>
    if dev.dir ≠ .input then
      .ok ({ dev with dir := .input }, (gpioDirectionInput gpio core k).2)
    else .ok (dev, k)
  | .setOut =>
    if dev.dir ≠ .output then
      .ok (⟨.low, .output⟩, (gpioDirectionOutput gpio .low core k).2)
    else .ok (dev, k)
  | .setHigh =>
    if dev.dir = .input then .error (-EPERM)
    else .ok ({ dev with state := .high }, gpioSetValue gpio .high k)
  | .setLow =>
    if dev.dir = .input then .error (-EPERM)
    else .ok ({ dev with state := .low }, gpioSetValue gpio .low k)
  | .na => .error (-EINVAL)

/-- `gpio_lkm_write` on a file with record `a`: `payload` is what is readable at the user
address, `core` what the GPIO core answers. None is a write past the end of `kbuf`. The VFS keeps
`count` far below the sign bit of `ssize_t`, so the count is returned as it is. -/
def gpioLkmWrite (f : File) (a : Nat) (payload : List UInt8) (count : Nat) (core : Int)
    (k : Kernel) : Option (Int × File × Kernel) :=
  let gpio := minor f.inode
  (rawCopyFromUser BUF_SIZE payload (copyLen count)).bind fun (missing, kbuf) =>
    if missing ≠ 0 then some (-EFAULT, f, k)
    else (terminate BUF_SIZE kbuf).map fun kbuf =>
      match runCommand (whichCommand kbuf) gpio core (k.heap a) k with
      | .error e => (e, f, k)
      | .ok (dev, k) => (count, { f with fPos := f.fPos + count }, k.store a dev)

/-- A request of the VFS, with what the environment answers to the calls it makes. -/
inductive Request where
  | openNode (fd dev : Nat)
  | release (fd : Nat)
  | read (fd count room : Nat) (sample : Nat → Int)
  | write (fd : Nat) (payload : List UInt8) (count : Nat) (core : Int)

/-- How a request ends: it is answered, or it has overrun `kbuf` on the kernel stack, and nothing
is known of the system after it. -/
inductive Reply where
  | answered (r : Int) (s : Driver)
  | overrun

/-- Serve one whole request. Requests on files that are not open, opens of nodes that are not the
module's, and accesses to freed records are not served. -/
def serve (s : Driver) : Request → Option Reply
  | .openNode fd dev =>
    if s.files fd = none ∧ dev ∈ gpios.map (nodeDev s.first) then
      (s.kernel.resolve dev).map fun a =>
        .answered 0 { s with files := Function.update s.files fd (some (gpioLkmOpen dev a)) }
    else none
  | .release fd =>
    (s.files fd).map fun _ => .answered 0 { s with files := Function.update s.files fd none }
  | .read fd count room sample =>
    (s.files fd).map fun f =>
      let (r, k) := gpioLkmRead f sample room count s.kernel
      .answered r.1 { s with kernel := k }
  | .write fd payload count core => do
    let f ← s.files fd
    let a ← f.privateData
    if a ∈ s.kernel.reg.records then
      match gpioLkmWrite f a payload count core s.kernel with
      | none => some .overrun
      | some (r, f, k) =>
        some (.answered r { s with kernel := k, files := Function.update s.files fd (some f) })
    else none

/-- One step of the module: a request that is answered, together with the result observed. -/
def step (s : Driver) (a : Request × Int) : Option Driver :=
  match serve s a.1 with
  | some (.answered r t) => if r = a.2 then some t else none
  | some .overrun | none => none

/-- The module as its users meet it: serving, or gone with an overrun. -/
inductive Module where
  | serving (s : Driver)
  | overrun

/-- One request issued to the module: a step, or an overrun, of which no result is known and after
which there is no further step. -/
def issue : Module → Request × Int → Option Module
  | .serving s, a =>
    match serve s a.1 with
    | some (.answered r t) => if r = a.2 then some (.serving t) else none
    | some .overrun => some .overrun
    | none => none
  | .overrun, _ => none

/-- A step is a request that is answered, with its answer. -/
theorem step_eq_some {s t : Driver} {q : Request} {r : Int} :
    step s (q, r) = some t ↔ serve s q = some (.answered r t) := by
  unfold step
  split
  · next r' t' h => simp [h]
  · next h => simp [h]
  · next h => simp [h]

/-- A step is a request that was issued. -/
theorem issue_of_step {s t : Driver} {a : Request × Int} (h : step s a = some t) :
    issue (.serving s) a = some (.serving t) := by
  obtain ⟨q, r⟩ := a
  simp only [issue, step_eq_some.mp h, ite_true]

/-- A request that is issued is a step of a serving module, or overruns it. -/
theorem issue_cases {m n : Module} {a : Request × Int} (h : issue m a = some n) :
    ∃ s, m = .serving s ∧
      ((∃ t, step s a = some t ∧ n = .serving t) ∨ serve s a.1 = some .overrun ∧ n = .overrun) := by
  cases m with
  | overrun => cases h
  | serving s =>
    refine ⟨s, rfl, ?_⟩
    obtain ⟨q, r⟩ := a
    simp only [issue] at h
    split at h
    · next r' t hserve =>
      simp only [Option.ite_none_right_eq_some, Option.some.injEq] at h
      obtain ⟨rfl, rfl⟩ := h
      exact Or.inl ⟨t, step_eq_some.mpr hserve, rfl⟩
    · next hserve =>
      cases h
      exact Or.inr ⟨hserve, rfl⟩
    · cases h

/-- A run of steps is a run of requests issued. -/
theorem issued_of_run {s t : Driver} {as : List (Request × Int)} (h : Run step s as t) :
    Run issue (.serving s) as (.serving t) := by
  induction h with
  | nil => exact Run.nil _
  | snoc _ hs ih => exact Run.snoc ih (issue_of_step hs)

/-- Whoever still finds the module serving has made a run of steps. -/
theorem run_of_issued {s t : Driver} {as : List (Request × Int)}
    (h : Run issue (.serving s) as (.serving t)) : Run step s as t := by
  generalize hm : Module.serving t = m at h
  induction h generalizing t with
  | nil =>
    cases hm
    exact Run.nil s
  | snoc _ hs ih =>
    obtain ⟨u, rfl, ⟨v, hv, rfl⟩ | ⟨-, rfl⟩⟩ := issue_cases hs
    · cases hm
      exact Run.snoc (ih rfl) hv
    · cases hm

/-- There are as many pins as numbers reserved. -/
theorem length_gpios : gpios.length = USE_GPIOS_NUM := by decide

/-- The loop meets no pin twice. -/
theorem nodup_gpios : gpios.Nodup := by decide

example : gpios = [4, 5, 6, 12, 13, 16, 17, 18, 22, 23, 24, 25, 26, 27] := by decide

/-- No pin is past the last number that the loop tries. -/
theorem gpio_le {i : Nat} (h : i ∈ gpios) : i ≤ MAX_GPIO_NUMBER := by
  have hr := List.mem_range.mp (List.mem_filter.mp h).1
  omega

/-- Every pin number is a minor number. -/
theorem gpio_lt {i : Nat} (h : i ∈ gpios) : i < 1 <<< MINORBITS := by
  have hle := gpio_le h
  simp only [MAX_GPIO_NUMBER, minors_per_major] at hle ⊢
  omega

end OsCourseLabs.Gpio
