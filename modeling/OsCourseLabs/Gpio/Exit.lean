import OsCourseLabs.Gpio.Loaded

/-!
# Unloading the GPIO driver

`gpio_lkm_exit` has no branch besides the pin test of its loop, so it is a list of
kernel calls fixed by the state it starts from. It releases the region, the records,
the nodes, the GPIOs and the class, in this order, and never a cdev.
-/

namespace OsCourseLabs.Gpio

open Transition

/-- The pins that the loop of `gpio_lkm_exit` selects, by a test of its own. -/
def exitGpio (i : Nat) : Bool :=
  i == 4 || i == 17 || i == 18 || i == 27 ||
  i == 22 || i == 23 || i == 24 || i == 25 ||
  i == 5 || i == 6 || i == 13 || i == 12 ||
  i == 16 || i == 26

/-- A kernel call of `gpio_lkm_exit`, with the answer of the GPIO core where it may refuse. -/
inductive ExitCall where
  | unregisterChrdevRegion
  | kfree (p : Option Nat)
  | gpioDirectionOutput (gpio : Nat) (core : Int)
  | deviceDestroy (dev : Nat)
  | gpioFree (gpio : Nat)
  | classDestroy
  deriving DecidableEq, Repr

/-- The effect of one call; no result is read. -/
def ExitCall.run (s : Driver) (k : Kernel) : ExitCall → Kernel
  | .unregisterChrdevRegion => Gpio.unregisterChrdevRegion s.first USE_GPIOS_NUM k
  | .kfree p => Gpio.kfree p k
  | .gpioDirectionOutput gpio core => (Gpio.gpioDirectionOutput gpio .low core k).2
  | .deviceDestroy dev => Gpio.deviceDestroy DEVICE_NAME s.gpioLkmClass dev k
  | .gpioFree gpio => Gpio.gpioFree gpio k
  | .classDestroy => Gpio.classDestroy DEVICE_NAME s.gpioLkmClass k

/-- The calls on pins that one call of the exit makes. -/
def ExitCall.gpioCalls : ExitCall → List GpioCall
  | .gpioDirectionOutput gpio _ => [.directionOutput gpio .low]
  | .gpioFree gpio => [.free gpio]
  | _ => []

/-- The body of the pin loop of `gpio_lkm_exit`. -/
def exitPin (s : Driver) (core : Nat → Int) (i : Nat) : List ExitCall :=
  [.gpioDirectionOutput i (core i), .deviceDestroy (nodeDev s.first i), .gpioFree i]

/-- The calls of `gpio_lkm_exit` in order. -/
def exitCalls (s : Driver) (core : Nat → Int) : List ExitCall :=
  .unregisterChrdevRegion ::
    (List.range USE_GPIOS_NUM).map (fun i => .kfree (s.gpioLkmDevp i)) ++
    ((List.range (MAX_GPIO_NUMBER + 1)).filter exitGpio).flatMap (exitPin s core) ++
    [.classDestroy]

/-- `gpio_lkm_exit`. -/
def gpioLkmExit (core : Nat → Int) (s : Driver) : Driver :=
  { s with kernel := (exitCalls s core).foldl (ExitCall.run s) s.kernel }

/-- The exit frees a record to which a device number still resolves. -/
def FreesPublished (core : Nat → Int) (s : Driver) : Prop :=
  ∃ pre a post dev, exitCalls s core = pre ++ .kfree (some a) :: post ∧
    (pre.foldl (ExitCall.run s) s.kernel).resolve dev = some a

/-- The exit restores the registries of the load and frees nothing that is published. -/
def UndoesLoad (core : Nat → Int) (s0 s : Driver) : Prop :=
  (gpioLkmExit core s).kernel.reg = s0.kernel.reg ∧ ¬ FreesPublished core s

/-- Both loops select the same pins. -/
theorem exitGpio_eq : exitGpio = initGpio := rfl

/-- What one call of the exit does to cdevs, to pins and to the list of GPIO calls. -/
structure ExitCall.Effect (c : ExitCall) (k k' : Kernel) : Prop where
  cdevs : k'.reg.cdevs = k.reg.cdevs
  gpioCalls : k'.gpioCalls = k.gpioCalls ++ c.gpioCalls
  pins : ∀ pin, k'.pins pin = k.pins pin ∨ k'.pins pin = ⟨.output, .low⟩

theorem ExitCall.run_effect (s : Driver) (k : Kernel) (c : ExitCall) : c.Effect k (c.run s k) := by
  cases c with
  | unregisterChrdevRegion => exact ⟨rfl, (List.append_nil _).symm, fun _ => Or.inl rfl⟩
  | kfree p => cases p <;> exact ⟨rfl, (List.append_nil _).symm, fun _ => Or.inl rfl⟩
  | gpioDirectionOutput gpio core =>
    simp only [run, Gpio.gpioDirectionOutput, gpioConfigure]
    split
    · exact ⟨rfl, rfl, fun _ => Or.inl rfl⟩
    · refine ⟨rfl, rfl, fun pin => ?_⟩
      by_cases hp : pin = gpio
      · subst hp
        exact Or.inr (Function.update_self _ _ _)
      · exact Or.inl (Function.update_of_ne hp _ _)
  | deviceDestroy dev =>
    simp only [run, Gpio.deviceDestroy]
    split <;> exact ⟨rfl, (List.append_nil _).symm, fun _ => Or.inl rfl⟩
  | gpioFree => exact ⟨rfl, rfl, fun _ => Or.inl rfl⟩
  | classDestroy =>
    simp only [run, Gpio.classDestroy]
    split <;> exact ⟨rfl, (List.append_nil _).symm, fun _ => Or.inl rfl⟩

/-- No call of the exit removes a cdev. -/
theorem foldl_run_cdevs (s : Driver) (calls : List ExitCall) (k : Kernel) :
    (calls.foldl (ExitCall.run s) k).reg.cdevs = k.reg.cdevs := by
  induction calls generalizing k with
  | nil => rfl
  | cons c calls ih => rw [List.foldl_cons, ih, (c.run_effect s k).cdevs]

/-- After any run of requests, open handles or not, an exit leaves the cdevs of all pins behind,
and the first record it frees is one that its number still resolves to. -/
theorem gpioLkmExit_not_undoesLoad {o : Outcomes} {s0 s t : Driver} {as : List (Request × Int)}
    (hinit : gpioLkmInit o s0 = (s, 0)) (hrun : Run step s as t) (core : Nat → Int) :
    ¬ UndoesLoad core s0 t ∧ FreesPublished core t ∧
      (gpioLkmExit core t).kernel.reg.cdevs.length =
        s0.kernel.reg.cdevs.length + USE_GPIOS_NUM := by
  obtain ⟨u, as', hu, hg⟩ := gpioLkmInit_zero hinit
  have hf := run_framed hrun
  have hlen : as'.length = 14 := hg.length
  have hcdevs : (gpioLkmExit core t).kernel.reg.cdevs.length =
      s0.kernel.reg.cdevs.length + USE_GPIOS_NUM := by
    rw [gpioLkmExit, foldl_run_cdevs, hf.reg, hg.cdevs, hu.cdevs]
    simp [length_gpios, hlen, USE_GPIOS_NUM]
    omega
  refine ⟨fun h => ?_, ⟨[.unregisterChrdevRegion], as'[0],
    (List.range' 1 13).map (fun i => .kfree (t.gpioLkmDevp i)) ++
      ((List.range (MAX_GPIO_NUMBER + 1)).filter exitGpio).flatMap (exitPin t core) ++
      [.classDestroy], u.first + 4, ?_, ?_⟩, hcdevs⟩
  · rw [h.1] at hcdevs
    simp only [USE_GPIOS_NUM] at hcdevs
    omega
  · have hdevp : t.gpioLkmDevp 0 = some as'[0] := by
      rw [hf.devp, hg.devp, if_pos (by omega)]
      simp
    have hrange : List.range USE_GPIOS_NUM = 0 :: List.range' 1 13 := by decide
    rw [exitCalls, hrange, List.map_cons, hdevp]
    rfl
  · rw [Kernel.resolve, foldl_run_cdevs, hf.reg]
    exact resolve_pin hg (k := 0) (by decide) (by omega)

/-- The theorem applies after a handle on pin 4 was opened and closed. -/
theorem gpioLkmExit_not_undoesLoad_smooth :
    ∃ t, Run step (gpioLkmInit .smooth .unloaded).1
      [(.openNode 3 (nodeDev (mkdev 240 0) 4), 0), (.release 3, 0)] t ∧
      ¬ UndoesLoad (fun _ => 0) .unloaded t := by
  obtain ⟨t, hrun⟩ := run_of_isSome (show (exec step (gpioLkmInit .smooth .unloaded).1
      [(.openNode 3 (nodeDev (mkdev 240 0) 4), 0), (.release 3, 0)]).isSome = true by decide)
  exact ⟨t, hrun, (gpioLkmExit_not_undoesLoad gpioLkmInit_smooth hrun _).1⟩

/-- Loading and unloading at once leaves a cdev in an empty kernel. -/
theorem smooth_load_not_undone :
    (gpioLkmInit .smooth .unloaded).2 = 0 ∧
      ¬ UndoesLoad (fun _ => 0) .unloaded (gpioLkmInit .smooth .unloaded).1 := by
  refine ⟨by decide, fun h => ?_⟩
  have hcdevs := congrArg Registries.cdevs h.1
  exact absurd hcdevs (by decide)

end OsCourseLabs.Gpio
