import OsCourseLabs.Gpio.Loaded

/-!
# When the GPIO core refuses

The switch of `gpio_lkm_write` does not read the results of its GPIO calls: it stores
the direction it asked for. A run keeps its records and its replies honest exactly when
the core refuses no direction that a command really asks for, and no write leaves its buffer.
-/

namespace OsCourseLabs.Gpio

open CString Transition

/-- A write that asks for a direction answers `count` only when the pin then has it. -/
def Honest (s : Driver) (a : Request × Int) : Prop :=
  match a.1 with
  | .write fd payload count _ => ∀ t f cmd dir, step s a = some t → s.files fd = some f →
      commandOf payload count = some cmd → cmd.wants = some dir →
      (a.2 = count ∧ (t.kernel.pins (minor f.inode)).dir = dir) ∨ a.2 < 0
  | _ => True

/-- The module serves in such a state. Nothing is known to hold after an overrun. -/
def Module.Holds (P : Driver → Prop) : Module → Prop
  | .serving s => P s
  | .overrun => False

/-- Records are truthful in every state of the run and replies honest at every step. -/
def Faithful (s : Driver) (as : List (Request × Int)) : Prop :=
  Always issue (.serving s) as (Module.Holds Truthful) ∧
    Along issue (.serving s) as fun m a => m.Holds (Honest · a)

/-- The switch stores the direction that the command asks for. -/
theorem runCommand_wants {cmd : Command} {gpio : Nat} {core : Int} {dev dev' : GpioLkmDev}
    {k k' : Kernel} {dir : Direction} (h : runCommand cmd gpio core dev k = .ok (dev', k'))
    (hw : cmd.wants = some dir) : dev'.dir = dir := by
  cases cmd with
  | setIn | setOut =>
    cases hw
    simp only [runCommand] at h
    split at h
    · cases h
      rfl
    · rename_i hd
      cases h
      simpa using hd
  | setHigh | setLow | na => cases hw

/-- A step from a truthful state to a truthful one answers honestly. -/
theorem Layout.honest {s : Driver} {record : Nat → Nat} (h : Layout s record)
    {a : Request × Int} (ht : ∀ t, step s a = some t → Truthful t) : Honest s a := by
  obtain ⟨q, r⟩ := a
  cases q with
  | write fd payload count core =>
    intro t f cmd dir hs hfd hcmd hw
    have htt := ht t hs
    have hs' := step_eq_some.mp hs
    have hlt := h.kept hs'
    obtain ⟨i, hi, f', hfd', hino, ⟨hneg, _⟩ | ⟨cmd', dev, pin, calls, hcmd', hr, _, hrun, rfl⟩⟩ :=
      h.write_cases hs'
    · exact Or.inr hneg
    · cases hfd.symm.trans hfd'
      cases hcmd.symm.trans hcmd'
      have hagree := hlt.truthful_iff.mp htt i hi
      refine Or.inl ⟨hr, ?_⟩
      rw [hino, minor_nodeDev h.baseMinor hi, ← hagree.1]
      simpa using runCommand_wants hrun hw
  | openNode | release | read => trivial

/-- A run from a fresh load is faithful exactly when none of its writes overruns the buffer and
the core refuses none of its direction changes. -/
theorem gpioLkm_faithful_iff {o : Outcomes} {s0 s : Driver} {m : Module}
    {as : List (Request × Int)} (hinit : gpioLkmInit o s0 = (s, 0)) (hminor : minor s.first = 0)
    (hclosed : ∀ fd, s0.files fd = none) (hrun : Run issue (.serving s) as m) :
    Faithful s as ↔ Along issue (.serving s) as fun u a =>
      ¬ a.1.Overruns ∧ u.Holds fun u => ¬ Refused u a := by
  obtain ⟨record, hl, hheap, hpins, -⟩ := gpioLkmInit_layout hinit hminor hclosed
  have ht0 : Truthful s := hl.truthful_iff.mpr fun i hi => by
    rw [hheap i hi, hpins i hi]
    decide
  constructor
  · rintro ⟨halways, -⟩
    refine hrun.along fun pre u a v hpre hu hs => ?_
    have htv := halways (pre ++ [a]) v hpre (Run.snoc hu hs)
    obtain ⟨u, rfl, ⟨w, hw, rfl⟩ | ⟨-, rfl⟩⟩ := issue_cases hs
    · have htu := halways pre _ ((List.prefix_append _ _).trans hpre) hu
      have hserved := step_eq_some.mp hw
      exact ⟨not_overruns_of_served hserved,
        ((hl.run (run_of_issued hu)).truthful_step_iff htu hserved).mp htv⟩
    · exact htv.elim
  · intro hharmless
    have halways : Always issue (.serving s) as (Module.Holds Truthful) := by
      intro pre u hpre hu
      have hinv := hu.guarded_invariant (I := Module.Holds fun u => Layout u record ∧ Truthful u)
        (hharmless.shorten hpre) ⟨hl, ht0⟩ ?_
      · cases u with
        | serving u => exact hinv.2
        | overrun => exact hinv
      · rintro u ⟨q, r⟩ v hi hg hs
        obtain ⟨u, rfl, ⟨w, hw, rfl⟩ | ⟨hover, -⟩⟩ := issue_cases hs
        · have hserved := step_eq_some.mp hw
          exact ⟨hi.1.kept hserved, (hi.1.truthful_step_iff hi.2 hserved).mpr hg.2⟩
        · exact absurd (serve_overrun hover) hg.1
    refine ⟨halways, fun pre a u hpre hu => ?_⟩
    cases u with
    | overrun => exact halways pre _ ((List.prefix_append _ _).trans hpre) hu
    | serving u =>
      apply (hl.run (run_of_issued hu)).honest
      intro v hs
      exact halways (pre ++ [a]) _ hpre (Run.snoc hu (issue_of_step hs))

/-- Pin 17 is opened, `in` is refused by the core with `-EINVAL`, and the reply is the count. -/
def refusedIn : List (Request × Int) :=
  [(.openNode 3 (nodeDev (mkdev 240 0) 17), 0),
    (.write 3 (cmdIn ++ ascii ['\n']) 3 (-EINVAL), 3)]

private theorem refusedIn_ends :
    ∃ t, Run issue (.serving (gpioLkmInit .smooth .unloaded).1) refusedIn (.serving t) ∧
      t.gpioLkmDevp 6 = some 7 ∧ (t.kernel.heap 7).dir = .input ∧
      (t.kernel.pins 17).dir = .output := by
  have he : (exec step (gpioLkmInit .smooth .unloaded).1 refusedIn).map (fun t =>
      (t.gpioLkmDevp 6, (t.kernel.heap 7).dir, (t.kernel.pins 17).dir)) =
      some (some 7, .input, .output) := by decide
  obtain ⟨t, hrun, hv⟩ := run_of_observed he
  simp only [Prod.mk.injEq] at hv
  exact ⟨t, issued_of_run hrun, hv⟩

/-- The theorem applies to a run in which the core refuses. -/
theorem gpioLkm_faithful_iff_refusedIn :
    ∃ m, Run issue (.serving (gpioLkmInit .smooth .unloaded).1) refusedIn m ∧
      (Faithful (gpioLkmInit .smooth .unloaded).1 refusedIn ↔
        Along issue (.serving (gpioLkmInit .smooth .unloaded).1) refusedIn fun u a =>
          ¬ a.1.Overruns ∧ u.Holds fun u => ¬ Refused u a) := by
  obtain ⟨t, hrun, -⟩ := refusedIn_ends
  exact ⟨_, hrun, gpioLkm_faithful_iff gpioLkmInit_smooth rfl (fun _ => rfl) hrun⟩

/-- The record claims an input while the pin still drives its level. -/
theorem refusedIn_not_faithful :
    (∃ m, Run issue (.serving (gpioLkmInit .smooth .unloaded).1) refusedIn m) ∧
      ¬ Faithful (gpioLkmInit .smooth .unloaded).1 refusedIn := by
  obtain ⟨t, hrun, hdevp, hdir, hpin⟩ := refusedIn_ends
  refine ⟨⟨_, hrun⟩, fun h => ?_⟩
  obtain ⟨a, ha, hagree⟩ := h.1.last hrun 6 17 (by decide)
  rw [hdevp] at ha
  cases ha
  rw [Agrees, hdir, hpin] at hagree
  cases hagree.1

end OsCourseLabs.Gpio
