import OsCourseLabs.Gpio.Exit

/-!
# The pins the driver touches

The calls of a load, of any run of requests that stay inside the command buffer and of an
exit, taken together, form a disciplined ledger of pins: each selected pin is requested once
by the load, used only while it is held, and freed once by the exit.
-/

namespace OsCourseLabs.Gpio

open Ledger Transition

/-- The pin a call is about. -/
def GpioCall.pin : GpioCall → Nat
  | .request pin | .directionInput pin | .directionOutput pin _ | .setValue pin _
  | .getValue pin | .free pin => pin

/-- What a load and all that follows it may do to pins. -/
structure Footprint (load rest : List GpioCall) : Prop where
  owned : ∀ c ∈ load ++ rest, .request c.pin ∈ load
  between : ∀ pre c post, load ++ rest = pre ++ c :: post → c.op = .use c.pin →
    .request c.pin ∈ pre ∧ .free c.pin ∉ pre
  freed : ∀ pin, .request pin ∈ load → (load ++ rest).count (.free pin) = 1

/-- The calls of a load that returns zero. -/
def loadCalls : List GpioCall := gpios.flatMap fun i => [.request i, .directionOutput i .low]

/-- The calls of an exit. -/
def unloadCalls : List GpioCall := gpios.flatMap fun i => [.directionOutput i .low, .free i]

/-- Only a request acquires a pin. -/
theorem GpioCall.op_eq_acquire {c : GpioCall} {pin : Nat} :
    c.op = .acquire pin ↔ c = .request pin := by
  cases c <;> simp [op]

/-- Only a free releases a pin. -/
theorem GpioCall.op_eq_release {c : GpioCall} {pin : Nat} :
    c.op = .release pin ↔ c = .free pin := by
  cases c <;> simp [op]

/-- What a ledger of calls acquires was requested. -/
theorem mem_map_op_acquire {log : List GpioCall} {pin : Nat} :
    .acquire pin ∈ log.map GpioCall.op ↔ .request pin ∈ log := by
  simp [List.mem_map, GpioCall.op_eq_acquire]

/-- What a ledger of calls releases was freed. -/
theorem mem_map_op_release {log : List GpioCall} {pin : Nat} :
    .release pin ∈ log.map GpioCall.op ↔ .free pin ∈ log := by
  simp [List.mem_map, GpioCall.op_eq_release]

/-- A pin is released as often as it is freed. -/
theorem released_map_op (log : List GpioCall) (pin : Nat) :
    released (log.map GpioCall.op) pin = log.count (.free pin) := by
  induction log with
  | nil => rfl
  | cons c log ih =>
    rw [List.map_cons, released_cons, ih, List.count_cons]
    simp only [GpioCall.op_eq_release, beq_iff_eq]

/-- The calls of the exit are made in their order. -/
theorem foldl_run_gpioCalls (s : Driver) (calls : List ExitCall) (k : Kernel) :
    (calls.foldl (ExitCall.run s) k).gpioCalls =
      k.gpioCalls ++ calls.flatMap ExitCall.gpioCalls := by
  induction calls generalizing k with
  | nil => simp
  | cons c calls ih =>
    rw [List.foldl_cons, ih, (c.run_effect s k).gpioCalls, List.flatMap_cons, List.append_assoc]

/-- Whatever the GPIO core answers, the exit makes the same calls on pins. -/
theorem exitCalls_gpioCalls (s : Driver) (core : Nat → Int) :
    (exitCalls s core).flatMap ExitCall.gpioCalls = unloadCalls := by
  simp only [exitCalls, List.flatMap_append, List.flatMap_cons, List.flatMap_map,
    List.flatMap_assoc, exitPin, ExitCall.gpioCalls, exitGpio_eq]
  simp [unloadCalls, gpios]

/-- A pin that is an output at low level stays one to the end of the exit. -/
theorem foldl_run_pins {s : Driver} {k : Kernel} {pin : Nat} (h : k.pins pin = ⟨.output, .low⟩)
    (calls : List ExitCall) : (calls.foldl (ExitCall.run s) k).pins pin = ⟨.output, .low⟩ := by
  induction calls generalizing k with
  | nil => exact h
  | cons c calls ih =>
    apply ih
    rcases (c.run_effect s k).pins pin with he | he
    · rw [he, h]
    · exact he

/-- An exit that the GPIO core does not refuse leaves every selected pin an output at low. -/
theorem gpioLkmExit_pins {core : Nat → Int} (hcore : ∀ i, 0 ≤ core i) (s : Driver) {i : Nat}
    (hi : i ∈ gpios) : (gpioLkmExit core s).kernel.pins i = ⟨.output, .low⟩ := by
  have hmem : .gpioDirectionOutput i (core i) ∈ exitCalls s core := by
    have hpin : .gpioDirectionOutput i (core i) ∈
        ((List.range (MAX_GPIO_NUMBER + 1)).filter exitGpio).flatMap (exitPin s core) :=
      List.mem_flatMap.mpr ⟨i, hi, by simp [exitPin]⟩
    exact List.mem_append_left _ (List.mem_append_right _ hpin)
  obtain ⟨pre, post, he⟩ := List.append_of_mem hmem
  rw [gpioLkmExit, he, List.foldl_append, List.foldl_cons]
  refine foldl_run_pins ?_ post
  have hc : ¬ core i < 0 := Int.not_lt.mpr (hcore i)
  simp [ExitCall.run, gpioDirectionOutput, gpioConfigure, hc]

/-- The calls on pins that the requests of a run make are uses of selected pins. -/
theorem Layout.run_gpioCalls {s t : Driver} {record : Nat → Nat} {as : List (Request × Int)}
    (h : Layout s record) (hrun : Run step s as t) :
    ∃ log, t.kernel.gpioCalls = s.kernel.gpioCalls ++ log ∧
      ∀ c ∈ log, ∃ i ∈ gpios, c.op = .use i := by
  refine (hrun.invariant (I := fun u => Layout u record ∧ ∃ log,
    u.kernel.gpioCalls = s.kernel.gpioCalls ++ log ∧ ∀ c ∈ log, ∃ i ∈ gpios, c.op = .use i)
    ⟨h, [], by simp, by simp⟩ ?_).2
  rintro u ⟨q, r⟩ v ⟨hl, log, hlog, huses⟩ hstep
  have hs := step_eq_some.mp hstep
  refine ⟨hl.kept hs, ?_⟩
  rcases serve_cases hs with ⟨_, _, _, _, _, _, _, _, rfl⟩ | ⟨_, _, _, _, _, rfl⟩ |
    ⟨fd, _, _, _, f, m, _, hfd, rfl⟩ | ⟨_, _, _, _, _, _, _, _, rfl, _⟩
  · exact ⟨log, hlog, huses⟩
  · exact ⟨log, hlog, huses⟩
  · obtain ⟨i, hi, hino, -⟩ := hl.files fd f hfd
    have hm : minor f.inode = i := by rw [hino, minor_nodeDev hl.baseMinor hi]
    refine ⟨log ++ List.replicate m (.getValue i), by simp [hlog, hm],
      List.forall_mem_append.mpr ⟨huses, fun c hc => ⟨i, hi, ?_⟩⟩⟩
    rw [(List.mem_replicate.mp hc).2]
    rfl
  · obtain ⟨i, hi, _, _, _, ⟨_, rfl, _⟩ | ⟨_, _, _, calls, _, _, hcalls, _, rfl⟩⟩ :=
      hl.write_cases hs
    · exact ⟨log, hlog, huses⟩
    · exact ⟨log ++ calls, by simp [hlog],
        List.forall_mem_append.mpr ⟨huses, fun c hc => ⟨i, hi, hcalls c hc⟩⟩⟩

/-- A load acquires and uses one pin after the other. -/
theorem map_op_loadCalls :
    loadCalls.map GpioCall.op = gpios.flatMap fun i => [.acquire i, .use i] := by
  simp [loadCalls, List.map_flatMap, GpioCall.op]

/-- An exit uses and releases one pin after the other. -/
theorem map_op_unloadCalls :
    unloadCalls.map GpioCall.op = gpios.flatMap fun i => [.use i, .release i] := by
  simp [unloadCalls, List.map_flatMap, GpioCall.op]

/-- A load requests the selected pins. -/
theorem request_mem_loadCalls {i : Nat} : .request i ∈ loadCalls ↔ i ∈ gpios := by
  simp [loadCalls]

section Uses

variable {log : List GpioCall} (h : ∀ c ∈ log, ∃ i ∈ gpios, c.op = .use i)

include h

/-- Requests use selected pins and do nothing else to them. -/
theorem map_op_uses : ∀ op ∈ log.map GpioCall.op, ∃ i, op = .use i ∧ i ∈ gpios := by
  intro op hop
  obtain ⟨c, hc, rfl⟩ := List.mem_map.mp hop
  obtain ⟨i, hi, he⟩ := h c hc
  exact ⟨i, he, hi⟩

/-- Before the exit every selected pin was acquired once and none released. -/
theorem counts_of_uses (i : Nat) :
    acquired ((loadCalls ++ log).map GpioCall.op) i = (if i ∈ gpios then 1 else 0) ∧
      released ((loadCalls ++ log).map GpioCall.op) i = 0 := by
  have hl := opened_counts nodup_gpios i
  have hm := uses_counts (fun op hop => (map_op_uses h op hop).imp fun _ h => h.1) i
  rw [List.map_append, map_op_loadCalls, acquired_append, released_append, hl.1, hl.2, hm.1, hm.2]
  exact ⟨rfl, rfl⟩

/-- Load, requests and exit together keep the discipline. -/
theorem disciplined_of_uses :
    Disciplined ((loadCalls ++ (log ++ unloadCalls)).map GpioCall.op) := by
  rw [← List.append_assoc, List.map_append, map_op_unloadCalls]
  apply Disciplined.append_closed ?_ nodup_gpios
  · intro i hi
    have hc := counts_of_uses h i
    rw [if_pos hi] at hc
    rw [Held, hc.1, hc.2]
    decide
  · rw [List.map_append, map_op_loadCalls]
    have hopen := Disciplined.append_opened (Disciplined.nil (κ := Nat)) nodup_gpios
      fun i _ => by simp [Held]
    rw [List.nil_append] at hopen
    apply hopen.append_uses
    intro op hop
    obtain ⟨i, rfl, hi⟩ := map_op_uses h op hop
    have hl := opened_counts nodup_gpios i
    rw [if_pos hi] at hl
    exact ⟨i, rfl, by rw [Held, hl.1, hl.2]; decide⟩

/-- Requests that only use the selected pins fit between a load and an exit. -/
theorem footprint_of_uses : Footprint loadCalls (log ++ unloadCalls) := by
  have hdisc := disciplined_of_uses h
  constructor
  case owned =>
    intro c hc
    rw [request_mem_loadCalls]
    simp only [List.mem_append, loadCalls, unloadCalls, List.mem_flatMap, List.mem_cons,
      List.not_mem_nil, or_false] at hc
    rcases hc with ⟨i, hi, rfl | rfl⟩ | hc | ⟨i, hi, rfl | rfl⟩
    · exact hi
    · exact hi
    · obtain ⟨i, hi, he⟩ := h c hc
      cases c <;> cases he <;> exact hi
    · exact hi
    · exact hi
  case between =>
    intro pre c post he hc
    rw [he, List.map_append, List.map_cons, hc] at hdisc
    have hb := hdisc.use_between (by
      rw [← hc, ← List.map_cons, ← List.map_append, ← he, ← List.append_assoc, List.map_append,
        acquired_append, (counts_of_uses h _).1, map_op_unloadCalls,
        (closed_counts nodup_gpios _).1]
      split <;> decide)
    exact ⟨mem_map_op_acquire.mp hb.1, fun hf => hb.2 (mem_map_op_release.mpr hf)⟩
  case freed =>
    intro i hi
    rw [request_mem_loadCalls] at hi
    rw [← released_map_op, ← List.append_assoc, List.map_append, released_append,
      (counts_of_uses h i).2, map_op_unloadCalls, (closed_counts nodup_gpios i).2, if_pos hi]

end Uses

/-- From load to exit the driver touches the pins that the load requested and no other, each
between its request and its one release, and leaves all of them outputs at low level, if no
write overruns its buffer; the module then serves to the end of the run. -/
theorem gpioLkm_footprint {o : Outcomes} {s0 s : Driver} {m : Module}
    {as : List (Request × Int)} {core : Nat → Int} (hinit : gpioLkmInit o s0 = (s, 0))
    (hminor : minor s.first = 0) (hclosed : ∀ fd, s0.files fd = none)
    (hfits : ∀ a ∈ as, ¬ a.1.Overruns) (hrun : Run issue (.serving s) as m)
    (hcore : ∀ i, 0 ≤ core i) :
    ∃ t, m = .serving t ∧ ∃ load rest, s.kernel.gpioCalls = s0.kernel.gpioCalls ++ load ∧
      (gpioLkmExit core t).kernel.gpioCalls = s0.kernel.gpioCalls ++ load ++ rest ∧
      Footprint load rest ∧
      ∀ i, .request i ∈ load → (gpioLkmExit core t).kernel.pins i = ⟨.output, .low⟩ := by
  obtain ⟨t, rfl, hsteps⟩ := run_of_fitting hrun hfits
  refine ⟨t, rfl, ?_⟩
  obtain ⟨record, hl, -⟩ := gpioLkmInit_layout hinit hminor hclosed
  obtain ⟨u, as', hu, hg⟩ := gpioLkmInit_zero hinit
  obtain ⟨log, hlog, huses⟩ := hl.run_gpioCalls hsteps
  have hload : s.kernel.gpioCalls = s0.kernel.gpioCalls ++ loadCalls := by
    rw [hg.calls, hu.calls]
    rfl
  refine ⟨loadCalls, log ++ unloadCalls, hload, ?_, footprint_of_uses huses, fun i hi => ?_⟩
  · rw [gpioLkmExit, foldl_run_gpioCalls, exitCalls_gpioCalls, hlog, hload]
    simp only [List.append_assoc]
  · exact gpioLkmExit_pins hcore t (by simpa [loadCalls] using hi)

/-- Pin 4 is made an input and sampled twice before the module is removed. -/
def sampledRun : List (Request × Int) :=
  [(.openNode 3 (nodeDev (mkdev 240 0) 4), 0), (.write 3 (cmdIn ++ CString.ascii ['\n']) 3 0, 3),
    (.read 3 2 2 fun _ => 1, 2), (.release 3, 0)]

/-- The theorem applies to that run, after which the pin is an output again. -/
theorem gpioLkm_footprint_sampledRun :
    ∃ t load rest, Run issue (.serving (gpioLkmInit .smooth .unloaded).1) sampledRun (.serving t) ∧
      Footprint load rest ∧ (gpioLkmExit (fun _ => 0) t).kernel.gpioCalls = load ++ rest := by
  obtain ⟨m, hrun⟩ := run_of_isSome (show (exec issue
    (.serving (gpioLkmInit .smooth .unloaded).1) sampledRun).isSome = true by decide)
  have hcore : ∀ i : Nat, (0 : Int) ≤ (fun _ => 0) i := fun _ => Int.le_refl 0
  have hfits : ∀ a ∈ sampledRun, ¬ a.1.Overruns := by simp [sampledRun, Request.Overruns]
  obtain ⟨t, rfl, load, rest, -, hcalls, hfoot, -⟩ :=
    gpioLkm_footprint gpioLkmInit_smooth rfl (fun _ => rfl) hfits hrun hcore
  exact ⟨t, load, rest, hrun, hfoot, hcalls⟩

end OsCourseLabs.Gpio
