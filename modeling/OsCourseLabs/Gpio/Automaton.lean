import OsCourseLabs.Gpio.Loaded

/-!
# The three-state automaton of a pin

A user of the driver may think of each pin as an automaton driven by the strings
written to its node, and of the module as a panel of such automata with a table of
open handles. Every run of the loaded module is a run of that panel.
-/

namespace OsCourseLabs.Gpio

open CString Transition

/-- What a pin is to the user of its node. -/
inductive Mode where
  | input
  | outLow
  | outHigh
  deriving DecidableEq, Repr

/-- An input has one state, an output one for each level. -/
def Pin.mode (p : Pin) : Mode :=
  match p.dir, p.level with
  | .input, _ => .input
  | .output, .low => .outLow
  | .output, .high => .outHigh

/-- Where a string takes the automaton, or the error it answers. -/
def Mode.obey (m : Mode) (d : List UInt8) : Except Int Mode :=
  if d = cmdOut then .ok (if m = .input then .outLow else m)
  else if d = cmdIn then .ok .input
  else if d = cmdLow then if m = .input then .error (-EPERM) else .ok .outLow
  else if d = cmdHigh then if m = .input then .error (-EPERM) else .ok .outHigh
  else .error (-EINVAL)

/-- A whole write: a faulting copy changes nothing, and so does a string not obeyed. -/
def Mode.write (m : Mode) (payload : List UInt8) (count : Nat) : Int × Mode :=
  let len := min (count - 1) 511
  if payload.length < len then (-EFAULT, m)
  else
    match m.obey (cstr (payload.take len)) with
    | .ok m' => (count, m')
    | .error e => (e, m)

/-- One automaton for each pin and the pin each open handle stands for. -/
structure Panel where
  mode : Nat → Mode
  opened : Nat → Option Nat

inductive PanelRequest where
  | attach (fd pin : Nat)
  | detach (fd : Nat)
  | sample (fd : Nat)
  | write (fd : Nat) (payload : List UInt8) (count : Nat)

/-- One request on the panel together with the result observed; a sample may answer anything. -/
def Panel.step (p : Panel) : PanelRequest × Int → Option Panel
  | (.attach fd pin, r) =>
    if r = 0 ∧ p.opened fd = none ∧ pin ∈ gpios then
      some { p with opened := Function.update p.opened fd (some pin) }
    else none
  | (.detach fd, r) =>
    if r = 0 ∧ p.opened fd ≠ none then
      some { p with opened := Function.update p.opened fd none }
    else none
  | (.sample fd, _) => if p.opened fd ≠ none then some p else none
  | (.write fd payload count, r) =>
    (p.opened fd).bind fun pin =>
      if r = ((p.mode pin).write payload count).1 then
        some { p with
          mode := Function.update p.mode pin ((p.mode pin).write payload count).2 }
      else none

/-- The panel that a state of the module stands for. -/
def panel (s : Driver) : Panel where
  mode i := (s.kernel.pins i).mode
  opened fd := (s.files fd).map fun f => minor f.inode

/-- A request as the panel sees it. -/
def Request.onPanel : Request → PanelRequest
  | .openNode fd dev => .attach fd (minor dev)
  | .release fd => .detach fd
  | .read fd _ _ _ => .sample fd
  | .write fd payload count _ => .write fd payload count

/-- A write that is not empty and whose GPIO call, if it makes one, succeeds. -/
def Request.Granted : Request → Prop
  | .write _ _ count core => 1 ≤ count ∧ 0 ≤ core
  | _ => True

/-- What a whole write on an open file of pin `i` does and answers. -/
structure Follows (s t : Driver) (fd : Nat) (f : File) (i : Nat) (payload : List UInt8)
    (count : Nat) (r : Int) : Prop where
  automaton : (r, (t.kernel.pins i).mode) = (s.kernel.pins i).mode.write payload count
  pins : ∀ j, j ≠ i → t.kernel.pins j = s.kernel.pins j
  records : ∀ a, s.gpioLkmDevp (gpios.idxOf i) ≠ some a → t.kernel.heap a = s.kernel.heap a
  refused : r < 0 → t = s
  accepted : 0 ≤ r → r = count ∧
    t.files = Function.update s.files fd (some { f with fPos := f.fPos + count })

/-- The automaton on decoded commands. -/
private def Mode.obeyCommand (m : Mode) : Command → Except Int Mode
  | .setOut => .ok (if m = .input then .outLow else m)
  | .setIn => .ok .input
  | .setLow => if m = .input then .error (-EPERM) else .ok .outLow
  | .setHigh => if m = .input then .error (-EPERM) else .ok .outHigh
  | .na => .error (-EINVAL)

private theorem Mode.obey_eq (m : Mode) (com : List UInt8) :
    m.obey (cstr com) = m.obeyCommand (whichCommand com) := by
  rw [whichCommand_eq, Mode.obey]
  split
  · rfl
  split
  · rfl
  split
  · rfl
  split <;> rfl

/-- A record that agrees with its pin makes the switch the automaton of that pin. -/
theorem runCommand_mode {gpio : Nat} {core : Int} {dev : GpioLkmDev} {k : Kernel}
    (hc : 0 ≤ core) (ha : Agrees dev (k.pins gpio)) (com : List UInt8) :
    (runCommand (whichCommand com) gpio core dev k).map (fun r => (r.2.pins gpio).mode) =
      (k.pins gpio).mode.obey (cstr com) := by
  rw [Mode.obey_eq]
  have hcore : ¬ core < 0 := by omega
  have hdir := ha.1
  cases hd : dev.dir <;> cases hp : k.pins gpio with
  | mk dir level =>
    rw [hd, hp] at hdir
    cases hdir
    cases whichCommand com <;> cases level <;>
      simp [runCommand, Mode.obeyCommand, Except.map, gpioDirectionInput, gpioDirectionOutput,
        gpioConfigure, gpioSetValue, Pin.mode, hcore, hd, hp]

/-- A granted write on an open file is served and follows the automaton of its pin. -/
theorem Layout.write_follows {s t : Driver} {record : Nat → Nat} (h : Layout s record)
    (ht : Truthful s) {fd count : Nat} {payload : List UInt8} {core r : Int}
    (hcount : 1 ≤ count) (hcore : 0 ≤ core)
    (hs : serve s (.write fd payload count core) = some (.answered r t)) :
    ∃ i ∈ gpios, ∃ f, s.files fd = some f ∧ f.inode = nodeDev s.first i ∧
      Follows s t fd f i payload count r := by
  obtain ⟨i, hi, f, hfd, hino, hcases⟩ := h.write_cases hs
  refine ⟨i, hi, f, hfd, hino, ?_⟩
  have ha := h.truthful_iff.mp ht i hi
  have hmode := runCommand_mode hcore ha (payload.take (min (count - 1) 511))
  rw [commandOf_eq payload hcount] at hcases
  by_cases hl : payload.length < min (count - 1) 511
  · simp only [hl, ite_true, reduceCtorEq, false_and, exists_false, or_false] at hcases
    obtain ⟨hneg, rfl, rfl⟩ := hcases
    exact ⟨by simp only [Mode.write, hl, ite_true], fun _ _ => rfl, fun _ _ => rfl,
      fun _ => rfl, fun hr => absurd hr (by decide)⟩
  · simp only [hl, ite_false, Option.some.injEq] at hcases
    rcases hcases with ⟨hneg, rfl, hrun⟩ | ⟨cmd, dev, pin, calls, rfl, rfl, _, hrun, rfl⟩
    · rw [hrun] at hmode
      exact ⟨by simp only [Mode.write, hl, ite_false, ← hmode, Except.map], fun _ _ => rfl,
        fun _ _ => rfl, fun _ => rfl, fun hr => absurd hr (by omega)⟩
    · rw [hrun] at hmode
      refine ⟨?_, fun j hj => Function.update_of_ne hj _ _, fun a hne => ?_,
        fun hr => absurd hr (by omega), fun _ => ⟨rfl, rfl⟩⟩
      · simp only [Mode.write, hl, ite_false, ← hmode, Except.map]
      · have hdevp : s.gpioLkmDevp (gpios.idxOf i) = some (record i) :=
          h.devp _ _ (by simp [hi])
        apply Function.update_of_ne
        intro he
        apply hne
        rw [hdevp, he]

/-- The core refuses no granted request. -/
theorem Request.Granted.not_refused {q : Request} (hq : q.Granted) (s : Driver) (r : Int) :
    ¬ Refused s (q, r) := by
  cases q with
  | write fd payload count core =>
    rintro ⟨_, _, _, _, _, _, hneg, _⟩
    exact Int.not_lt.mpr hq.2 hneg
  | openNode | release | read => exact id

private theorem opened_update (s : Driver) (fd : Nat) (x : Option File) :
    (fun fd' => (Function.update s.files fd x fd').map fun f => minor f.inode) =
      Function.update (panel s).opened fd (x.map fun f => minor f.inode) := by
  ext1 fd'
  simp only [panel, Function.update_apply]
  split <;> rfl

/-- A write that follows the automaton of its pin is a write on the panel. -/
theorem Follows.panel_step {s t : Driver} {fd i count : Nat} {f : File} {payload : List UInt8}
    {r : Int} (h : Follows s t fd f i payload count r) (hfd : s.files fd = some f)
    (hm : minor f.inode = i) :
    (panel s).step (.write fd payload count, r) = some (panel t) := by
  have hr : r = (((panel s).mode i).write payload count).1 := congrArg Prod.fst h.automaton
  have hmode : (t.kernel.pins i).mode = (((panel s).mode i).write payload count).2 :=
    congrArg Prod.snd h.automaton
  have hopened : (panel t).opened = (panel s).opened := by
    rcases Int.lt_or_le r 0 with hneg | hpos
    · rw [h.refused hneg]
    · simp only [panel, (h.accepted hpos).2]
      rw [opened_update]
      apply Function.update_eq_self_iff.mpr
      simp only [panel, hfd, Option.map_some]
  have hmodes : (panel t).mode = Function.update (panel s).mode i
      (((panel s).mode i).write payload count).2 := by
    ext1 j
    by_cases hj : j = i
    · subst hj
      rw [Function.update_self]
      exact hmode
    · rw [Function.update_of_ne hj]
      simp only [panel, h.pins j hj]
  have hfile : (panel s).opened fd = some i := by
    simp only [panel, hfd, Option.map_some, hm]
  rw [Panel.step, hfile, Option.bind_some, if_pos hr, ← hmodes, ← hopened]

/-- One granted request of the module is one request of the panel. -/
theorem Layout.panel_step {s t : Driver} {record : Nat → Nat} (h : Layout s record)
    (ht : Truthful s) {q : Request} {r : Int} (hq : q.Granted)
    (hs : serve s q = some (.answered r t)) : (panel s).step (q.onPanel, r) = some (panel t) := by
  rcases serve_cases hs with ⟨fd, dev, a, rfl, hfd, hdev, _, rfl, rfl⟩ |
    ⟨fd, f, rfl, hfd, rfl, rfl⟩ | ⟨fd, _, _, _, f, m, rfl, hfd, rfl⟩ |
    ⟨fd, payload, count, core, _, _, _, _, rfl, _⟩
  · obtain ⟨i, hi, rfl⟩ := List.mem_map.mp hdev
    have hm := minor_nodeDev h.baseMinor hi
    have hnone : (panel s).opened fd = none := by simp only [panel, hfd, Option.map_none]
    rw [Request.onPanel, hm, Panel.step, if_pos ⟨rfl, hnone, hi⟩]
    have ho := opened_update s fd (some (gpioLkmOpen (nodeDev s.first i) a))
    simp only [Option.map_some, gpioLkmOpen, hm] at ho
    exact congrArg (fun opened => some (Panel.mk (panel s).mode opened)) ho.symm
  · have hsome : (panel s).opened fd ≠ none := by simp [panel, hfd]
    rw [Request.onPanel, Panel.step, if_pos ⟨rfl, hsome⟩]
    exact congrArg (fun opened => some (Panel.mk (panel s).mode opened))
      (opened_update s fd none).symm
  · have hsome : (panel s).opened fd ≠ none := by simp [panel, hfd]
    rw [Request.onPanel, Panel.step, if_pos hsome]
    rfl
  · obtain ⟨i, hi, f, hfd, hino, hw⟩ := h.write_follows ht hq.1 hq.2 hs
    exact hw.panel_step hfd (by rw [hino, minor_nodeDev h.baseMinor hi])

/-- After a load that returns zero, every run of granted requests keeps the records
truthful, lets every further write follow the automaton of its pin, and is a run of the
panel from all pins low and no handle open. -/
theorem gpioLkm_refines_panel {o : Outcomes} {s0 s t : Driver} {as : List (Request × Int)}
    (hinit : gpioLkmInit o s0 = (s, 0)) (hminor : minor s.first = 0)
    (hclosed : ∀ fd, s0.files fd = none) (has : ∀ a ∈ as, a.1.Granted)
    (hrun : Run step s as t) :
    Truthful t ∧
    (∀ fd f payload count core, t.files fd = some f → 1 ≤ count → 0 ≤ core →
      ∃ i ∈ gpios, f.inode = nodeDev t.first i ∧ ∃ r u,
        serve t (.write fd payload count core) = some (.answered r u) ∧
        Follows t u fd f i payload count r) ∧
    (∀ i ∈ gpios, (panel s).mode i = .outLow) ∧ (∀ fd, (panel s).opened fd = none) ∧
    Run Panel.step (panel s) (as.map fun a => (a.1.onPanel, a.2)) (panel t) := by
  obtain ⟨record, hl, hheap, hpins, hnone⟩ := gpioLkmInit_layout hinit hminor hclosed
  have ht0 : Truthful s := hl.truthful_iff.mpr fun i hi => by
    rw [hheap i hi, hpins i hi]
    decide
  have hstep : ∀ u a v, a.1.Granted → (Layout u record ∧ Truthful u) → step u a = some v →
      Layout v record ∧ Truthful v := by
    rintro u ⟨q, r⟩ v hq ⟨hlu, htu⟩ hs
    have hs' := step_eq_some.mp hs
    exact ⟨hlu.kept hs', (hlu.truthful_step_iff htu hs').mpr (hq.not_refused u r)⟩
  obtain ⟨hlt, htt⟩ := hrun.invariant_of_mem has ⟨hl, ht0⟩ hstep
  refine ⟨htt, ?_, ?_, ?_, ?_⟩
  · intro fd f payload count core hfd hcount hcore
    have hfits : ¬ (count = 0 ∧ BUF_SIZE < payload.length) := by omega
    obtain ⟨r, u, hs⟩ := hlt.write_served hfd hfits core
    obtain ⟨i, hi, f', hfd', hino, hw⟩ := hlt.write_follows htt hcount hcore hs
    cases hfd.symm.trans hfd'
    exact ⟨i, hi, hino, r, u, hs, hw⟩
  · intro i hi
    simp only [panel, hpins i hi]
    rfl
  · intro fd
    simp only [panel, hnone fd, Option.map_none]
  · refine hrun.refine panel (fun a => (a.1.onPanel, a.2)) has ⟨hl, ht0⟩ hstep ?_
    rintro u ⟨q, r⟩ v hq ⟨hlu, htu⟩ hs
    exact hlu.panel_step htu hq (step_eq_some.mp hs)

/-- The theorem applies: pin 17 is opened, made an input, and refuses to be driven. -/
theorem gpioLkm_refines_panel_smooth :
    ∃ t, Run step (gpioLkmInit .smooth .unloaded).1
      [(.openNode 3 (nodeDev (mkdev 240 0) 17), 0),
        (.write 3 (cmdIn ++ ascii ['\n']) 3 0, 3),
        (.write 3 (cmdHigh ++ ascii ['\n']) 5 0, -EPERM)] t ∧ Truthful t := by
  obtain ⟨t, hrun⟩ := run_of_isSome (show (exec step
      (gpioLkmInit .smooth .unloaded).1 [(.openNode 3 (nodeDev (mkdev 240 0) 17), 0),
        (.write 3 (cmdIn ++ ascii ['\n']) 3 0, 3),
        (.write 3 (cmdHigh ++ ascii ['\n']) 5 0, -EPERM)]).isSome = true by decide)
  exact ⟨t, hrun, (gpioLkm_refines_panel gpioLkmInit_smooth rfl (fun _ => rfl)
    (by simp [Request.Granted]) hrun).1⟩

end OsCourseLabs.Gpio
