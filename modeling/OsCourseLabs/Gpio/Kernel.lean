import OsCourseLabs.Core.Errno
import OsCourseLabs.Core.Ledger
import Mathlib.Logic.Function.Basic

/-!
# The kernel side of the GPIO driver

The registries hold what a driver acquires from the kernel: device-number regions,
classes, memory, GPIOs, live cdevs and device nodes. Each kernel call of
`gpio_lkm.c` is a function on the kernel state; where the kernel may refuse, the
outcome is an argument, and a call that would break a registry (a GPIO requested
twice, a region that overlaps another) refuses by itself. Calls that may be refused
during a load are recorded with their answers.
-/

namespace OsCourseLabs.Gpio

open Ledger

/-- `enum direction {in, out}`. -/
inductive Direction where
  | input
  | output
  deriving DecidableEq, Repr

/-- `enum state {low, high}`. -/
inductive Level where
  | low
  | high
  deriving DecidableEq, Repr

/-- Configured direction of a hardware pin and the level last driven on it. -/
structure Pin where
  dir : Direction
  level : Level
  deriving DecidableEq, Repr

/-- The fields of `struct gpio_lkm_dev` that the driver reads. -/
structure GpioLkmDev where
  state : Level
  dir : Direction
  deriving DecidableEq, Repr

/-- A pointer returned by a call that may fail by NULL or by an error pointer. -/
inductive Ptr where
  | null
  | err
  | valid
  deriving DecidableEq, Repr

/-- How many device numbers the driver reserves. -/
def USE_GPIOS_NUM : Nat := 14

/-- The last pin number that the loops of the driver try. -/
def MAX_GPIO_NUMBER : Nat := 27

/-- The name of the driver: of its range of numbers and of its class. -/
def DEVICE_NAME : String := "gpio_lkm"

/-- Twenty minor bits below the major number. -/
def MINORBITS : Nat := 20

/-- `MAJOR`. -/
def major (dev : Nat) : Nat := dev >>> MINORBITS

/-- `MINOR`. -/
def minor (dev : Nat) : Nat := dev % 1 <<< MINORBITS

/-- `MKDEV`. -/
def mkdev (ma mi : Nat) : Nat := (ma <<< MINORBITS) ||| mi

/-- What a driver can hold in the kernel. A cdev is named with the record it is embedded in. -/
inductive Resource where
  | region (first count : Nat)
  | cls (name : String)
  | record (a : Nat)
  | gpio (pin : Nat)
  | cdev (dev a : Nat)
  | node (dev : Nat)
  deriving DecidableEq, Repr

/-- The kernel registries, newest entry first. -/
structure Registries where
  /-- Reserved device-number ranges: first number and count. -/
  regions : List (Nat × Nat)
  classes : List String
  /-- Addresses of live allocations. -/
  records : List Nat
  /-- Requested GPIOs. -/
  gpios : List Nat
  /-- Device numbers with the record whose embedded cdev they resolve to. -/
  cdevs : List (Nat × Nat)
  /-- Device nodes: the class they are in, by its name, and their number. -/
  nodes : List (String × Nat)
  deriving DecidableEq, Repr

/-- A call on a GPIO, as the GPIO core sees it. -/
inductive GpioCall where
  | request (pin : Nat)
  | directionInput (pin : Nat)
  | directionOutput (pin : Nat) (value : Level)
  | setValue (pin : Nat) (value : Level)
  | getValue (pin : Nat)
  | free (pin : Nat)
  deriving DecidableEq, Repr

/-- A call of a load that the kernel may refuse, with the device number it is handed. -/
inductive LoadCall where
  | allocChrdevRegion
  | classCreate
  | kmalloc
  | gpioRequestOne
  | cdevAdd (dev : Nat)
  | deviceCreate (dev : Nat)
  deriving DecidableEq, Repr

/-- A call that was made, and whether it succeeded by its own convention: a null pointer, an error
pointer and a return value other than the promised one are failures. -/
structure Answer where
  call : LoadCall
  ok : Bool
  deriving DecidableEq, Repr

/-- Registries, memory, hardware pins, and what the driver did to them, oldest first. -/
structure Kernel where
  reg : Registries
  heap : Nat → GpioLkmDev
  pins : Nat → Pin
  ledger : List (Op Resource)
  gpioCalls : List GpioCall
  /-- The calls of loads, each recorded when it is answered. -/
  answers : List Answer

/-- The call is answered, and the answer recorded. -/
def Kernel.answer (call : LoadCall) (ok : Bool) (k : Kernel) : Kernel :=
  { k with answers := k.answers ++ [⟨call, ok⟩] }

/-- The record a device number resolves to: the newest cdev added for it. -/
def Kernel.resolve (k : Kernel) (dev : Nat) : Option Nat := k.reg.cdevs.lookup dev

/-- The range shares no number with a reserved one. -/
def Kernel.rangeFree (k : Kernel) (first count : Nat) : Bool :=
  k.reg.regions.all fun r => first + count ≤ r.1 || r.1 + r.2 ≤ first

/-- Reserve `count` consecutive numbers at the offered first number. -/
def allocChrdevRegion (offer : Option Nat) (count : Nat) (k : Kernel) : Option Nat × Kernel :=
  match offer with
  | none => (none, k.answer .allocChrdevRegion false)
  | some first =>
    if k.rangeFree first count then
      (some first, Kernel.answer .allocChrdevRegion true { k with
        reg := { k.reg with regions := (first, count) :: k.reg.regions }
        ledger := k.ledger ++ [.acquire (.region first count)] })
    else (none, k.answer .allocChrdevRegion false)

/-- Give a range back; no check says whether any of it is still in use. -/
def unregisterChrdevRegion (first count : Nat) (k : Kernel) : Kernel :=
  { k with
    reg := { k.reg with regions := k.reg.regions.erase (first, count) }
    ledger := k.ledger ++ [.release (.region first count)] }

/-- A class name is registered at most once: a second creation answers an error pointer. -/
def classCreate (name : String) (outcome : Ptr) (k : Kernel) : Ptr × Kernel :=
  match outcome with
  | .valid =>
    if name ∈ k.reg.classes then (.err, k.answer .classCreate false)
    else (.valid, Kernel.answer .classCreate true { k with
      reg := { k.reg with classes := name :: k.reg.classes }
      ledger := k.ledger ++ [.acquire (.cls name)] })
  | p => (p, k.answer .classCreate false)

/-- Destroying NULL or an error pointer does nothing. -/
def classDestroy (name : String) (cls : Ptr) (k : Kernel) : Kernel :=
  match cls with
  | .valid => { k with
      reg := { k.reg with classes := k.reg.classes.erase name }
      ledger := k.ledger ++ [.release (.cls name)] }
  | _ => k

/-- Any allocator: whatever is in use, it picks an address that is not. -/
structure Allocator where
  pick : List Nat → Nat
  fresh : ∀ used, pick used ∉ used

/-- Memory from the allocator, with indeterminate contents, or NULL. -/
def kmalloc (mem : Allocator) (ok : Bool) (k : Kernel) : Option Nat × Kernel :=
  if ok then
    let a := mem.pick k.reg.records
    (some a, Kernel.answer .kmalloc true { k with
      reg := { k.reg with records := a :: k.reg.records }
      ledger := k.ledger ++ [.acquire (.record a)] })
  else (none, k.answer .kmalloc false)

/-- Freeing NULL does nothing. -/
def kfree (p : Option Nat) (k : Kernel) : Kernel :=
  match p with
  | none => k
  | some a => { k with
      reg := { k.reg with records := k.reg.records.erase a }
      ledger := k.ledger ++ [.release (.record a)] }

/-- Store to the record at an address. -/
def Kernel.store (k : Kernel) (a : Nat) (dev : GpioLkmDev) : Kernel :=
  { k with heap := Function.update k.heap a dev }

/-- A pin configuration that the GPIO core may refuse, leaving the pin as it was. -/
def gpioConfigure (call : GpioCall) (gpio : Nat) (pin : Pin) (core : Int) (k : Kernel) :
    Int × Kernel :=
  let k := { k with gpioCalls := k.gpioCalls ++ [call] }
  if core < 0 then (core, k)
  else (0, { k with pins := Function.update k.pins gpio pin })

/-- Make the pin an input; its level stays what was last driven. -/
def gpioDirectionInput (gpio : Nat) (core : Int) (k : Kernel) : Int × Kernel :=
  gpioConfigure (.directionInput gpio) gpio { k.pins gpio with dir := .input } core k

/-- Make the pin an output that drives a level. -/
def gpioDirectionOutput (gpio : Nat) (value : Level) (core : Int) (k : Kernel) : Int × Kernel :=
  gpioConfigure (.directionOutput gpio value) gpio ⟨.output, value⟩ core k

/-- Drive a level; the direction of the pin stays as it is. -/
def gpioSetValue (gpio : Nat) (value : Level) (k : Kernel) : Kernel :=
  { k with
    gpioCalls := k.gpioCalls ++ [.setValue gpio value]
    pins := Function.update k.pins gpio { k.pins gpio with level := value } }

/-- A sample leaves the pin as it is. -/
def gpioGetValue (gpio : Nat) (k : Kernel) : Kernel :=
  { k with gpioCalls := k.gpioCalls ++ [.getValue gpio] }

/-- The requested GPIOs after one more request, unless the GPIO is in use. -/
def requestGpio (gpio : Nat) (gpios : List Nat) : Option (List Nat) :=
  if gpio ∈ gpios then none else some (gpio :: gpios)

/-- The requested GPIOs after one is freed, by whomever it was requested. -/
def freeGpio (gpio : Nat) (gpios : List Nat) : List Nat := gpios.erase gpio

/-- `gpio_request_one` with `GPIOF_OUT_INIT_LOW`: request, then configure as output low. -/
def gpioRequestOne (gpio : Nat) (core : Int) (k : Kernel) : Int × Kernel :=
  if core < 0 then (core, k.answer .gpioRequestOne false)
  else
    match requestGpio gpio k.reg.gpios with
    | none => (-EBUSY, k.answer .gpioRequestOne false)
    | some gpios => gpioDirectionOutput gpio .low 0 (Kernel.answer .gpioRequestOne true { k with
        reg := { k.reg with gpios := gpios }
        ledger := k.ledger ++ [.acquire (.gpio gpio)]
        gpioCalls := k.gpioCalls ++ [.request gpio] })

/-- The GPIO may be requested again; how it is configured stays. -/
def gpioFree (gpio : Nat) (k : Kernel) : Kernel :=
  { k with
    reg := { k.reg with gpios := freeGpio gpio k.reg.gpios }
    ledger := k.ledger ++ [.release (.gpio gpio)]
    gpioCalls := k.gpioCalls ++ [.free gpio] }

/-- Publish the cdev embedded in a record; no reservation of the number is checked. -/
def cdevAdd (a dev : Nat) (outcome : Int) (k : Kernel) : Int × Kernel :=
  if outcome = 0 then (0, Kernel.answer (.cdevAdd dev) true { k with
    reg := { k.reg with cdevs := (dev, a) :: k.reg.cdevs }
    ledger := k.ledger ++ [.acquire (.cdev dev a)] })
  else (outcome, k.answer (.cdevAdd dev) false)

/-- A node in the class of that name. An invalid class or a node that exists already makes the
call answer an error pointer. -/
def deviceCreate (name : String) (cls : Ptr) (dev : Nat) (outcome : Ptr) (k : Kernel) :
    Ptr × Kernel :=
  match outcome with
  | .valid =>
    if cls = .valid ∧ (name, dev) ∉ k.reg.nodes then
      (.valid, Kernel.answer (.deviceCreate dev) true { k with
        reg := { k.reg with nodes := (name, dev) :: k.reg.nodes }
        ledger := k.ledger ++ [.acquire (.node dev)] })
    else (.err, k.answer (.deviceCreate dev) false)
  | p => (p, k.answer (.deviceCreate dev) false)

/-- Destroying a node that does not exist does nothing. This is taken to hold also for a class
that is an error pointer, which has no nodes; the kernel would look for them behind it. -/
def deviceDestroy (name : String) (cls : Ptr) (dev : Nat) (k : Kernel) : Kernel :=
  if cls = .valid ∧ (name, dev) ∈ k.reg.nodes then
    { k with
      reg := { k.reg with nodes := k.reg.nodes.erase (name, dev) }
      ledger := k.ledger ++ [.release (.node dev)] }
  else k

/-- Recording an answer changes no registry. -/
@[simp] theorem Kernel.answer_reg (call : LoadCall) (ok : Bool) (k : Kernel) :
    (k.answer call ok).reg = k.reg := rfl

/-- Recording an answer appends it. -/
@[simp] theorem Kernel.answer_answers (call : LoadCall) (ok : Bool) (k : Kernel) :
    (k.answer call ok).answers = k.answers ++ [⟨call, ok⟩] := rfl

/-- How many minor numbers a major has. -/
theorem minors_per_major : 1 <<< MINORBITS = 1048576 := rfl

/-- A pin number is recovered from the node's number when the first minor is zero. -/
theorem minor_add {first i : Nat} (h0 : minor first = 0) (hi : i < 1 <<< MINORBITS) :
    minor (first + i) = i := by
  simp only [minor, minors_per_major] at h0 hi ⊢
  omega

/-- Both spellings of a node's device number agree when the first minor is zero. -/
theorem mkdev_major_minor_add {first i : Nat} (h0 : minor first = 0) (hi : i < 1 <<< MINORBITS) :
    mkdev (major first) (minor first + i) = first + i := by
  rw [h0, Nat.zero_add, mkdev, major]
  have hm : first / 1048576 * 1048576 = first := by
    simp only [minor, minors_per_major] at h0
    omega
  have hi' : i < 2 ^ MINORBITS := by simpa only [Nat.one_shiftLeft] using hi
  rw [← Nat.shiftLeft_add_eq_or_of_lt hi', Nat.shiftLeft_eq, Nat.shiftRight_eq_div_pow]
  exact congrArg (· + i) hm

end OsCourseLabs.Gpio
