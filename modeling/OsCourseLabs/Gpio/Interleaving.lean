import OsCourseLabs.Core.Slots
import OsCourseLabs.Gpio.Loaded

/-!
# Overlapping writes to one pin

Nothing is locked between the check of the cached direction, the GPIO call and the two
stores of `gpio_lkm_write`, so the steps of several writes on one node interleave. A
store is stale when the pin has moved on since the call it records; runs without stale
stores bring record and pin into agreement whenever no write is in progress.
-/

namespace OsCourseLabs.Gpio

open Slots Transition

/-- Where a write is inside the switch. -/
inductive WritePc where
  | check
  | call
  | storeDir
  | storeState
  | done
  deriving DecidableEq, Repr

/-- A write in progress: its decoded command and its next step. -/
structure Writer where
  cmd : Command
  pc : WritePc
  deriving DecidableEq, Repr

/-- One node: its record, its pin, and the writes begun on it, oldest first. -/
structure Node where
  dev : GpioLkmDev
  pin : Pin
  writers : List Writer
  deriving DecidableEq, Repr

inductive NodeAction where
  | begin (cmd : Command)
  | step (k : Nat)
  deriving DecidableEq, Repr

/-- The level that a command stores in the record, if it stores one. -/
def Command.drives : Command → Option Level
  | .setOut | .setLow => some .low
  | .setHigh => some .high
  | _ => none

/-- The check at the head of a case: the write ends without a call or an effect. -/
def Command.skips (cmd : Command) (dev : GpioLkmDev) : Bool :=
  match cmd with
  | .setIn => dev.dir = .input
  | .setOut => dev.dir = .output
  | .setHigh | .setLow => dev.dir = .input
  | .na => true

/-- The GPIO call of a case, which succeeds. -/
def Command.call (cmd : Command) (pin : Pin) : Pin :=
  match cmd with
  | .setIn => { pin with dir := .input }
  | .setOut => ⟨.output, .low⟩
  | .setHigh => { pin with level := .high }
  | .setLow => { pin with level := .low }
  | .na => pin

/-- The next step of one write; a store that the command does not make has no effect. -/
def Node.advance (n : Node) (k : Nat) (w : Writer) : Option Node :=
  match w.pc with
  | .check => some { n with
      writers := n.writers.set k ⟨w.cmd, if w.cmd.skips n.dev then .done else .call⟩ }
  | .call => some { n with
      pin := w.cmd.call n.pin
      writers := n.writers.set k ⟨w.cmd, .storeDir⟩ }
  | .storeDir => some { n with
      dev := { n.dev with dir := w.cmd.wants.getD n.dev.dir }
      writers := n.writers.set k ⟨w.cmd, .storeState⟩ }
  | .storeState => some { n with
      dev := { n.dev with state := w.cmd.drives.getD n.dev.state }
      writers := n.writers.set k ⟨w.cmd, .done⟩ }
  | .done => none

/-- Any client may begin a write, and any write in progress may take its next step. -/
def Node.step (n : Node) : NodeAction → Option Node
  | .begin cmd => some { n with writers := n.writers ++ [⟨cmd, .check⟩] }
  | .step k => n.writers[k]?.bind (n.advance k)

/-- No write is in progress. -/
def Node.Idle (n : Node) : Prop := ∀ w ∈ n.writers, w.pc = .done

/-- The direction a write has called for and not stored yet. -/
def Writer.pendingDir (w : Writer) : Option Direction :=
  if w.pc = .storeDir then w.cmd.wants else none

/-- The level a write has called for and not stored yet. -/
def Writer.pendingState (w : Writer) : Option Level :=
  if w.pc = .storeDir ∨ w.pc = .storeState then w.cmd.drives else none

/-- The action stores a direction that the pin no longer has, or a level that the pin,
being an output, no longer drives. -/
def Node.Stale (n : Node) : NodeAction → Prop
  | .begin _ => False
  | .step k => ∃ w ∈ n.writers[k]?,
      (∃ d ∈ w.pendingDir, d ≠ n.pin.dir) ∨
      (w.pc = .storeState ∧ n.pin.dir = .output ∧ ∃ l ∈ w.pendingState, l ≠ n.pin.level)

instance (n : Node) (a : NodeAction) : Decidable (n.Stale a) :=
  match a with
  | .begin _ => inferInstanceAs (Decidable False)
  | .step k => inferInstanceAs (Decidable (∃ w ∈ n.writers[k]?, (_ ∨ _)))

instance (n : Node) : Decidable n.Idle := inferInstanceAs (Decidable (∀ w ∈ _, _))

/-- Once nothing is left to store, the record agrees with the pin. -/
structure Node.Settling (n : Node) : Prop where
  dir : (∀ w ∈ n.writers, w.pendingDir = none) → n.dev.dir = n.pin.dir
  state : n.pin.dir = .output → (∀ w ∈ n.writers, w.pendingState = none) →
    n.dev.state = n.pin.level

/-- A call that leaves no direction to store did not change it. -/
theorem Command.call_dir {cmd : Command} (h : cmd.wants = none) (pin : Pin) :
    (cmd.call pin).dir = pin.dir := by
  cases cmd with
  | setIn | setOut => cases h
  | setHigh | setLow | na => rfl

/-- A call that leaves no level to store drove none, or made the pin an input. -/
theorem Command.call_level {cmd : Command} (h : cmd.drives = none) {pin : Pin}
    (ho : (cmd.call pin).dir = .output) : cmd.call pin = pin := by
  cases cmd with
  | setIn => exact absurd ho (by simp [Command.call])
  | setOut | setHigh | setLow => cases h
  | na => rfl

/-- A write that goes on to its call, or ends, leaves nothing new to store. -/
theorem Node.Settling.check {n : Node} {k : Nat} {w : Writer} (h : n.Settling)
    (hk : n.writers[k]? = some w) (hpc : w.pc = .check) (w' : Writer) :
    Settling { n with writers := n.writers.set k w' } := by
  refine ⟨fun hw => h.dir (forall_mem_of_set hk (fun _ => ?_) hw),
    fun ho hw => h.state ho (forall_mem_of_set hk (fun _ => ?_) hw)⟩
  · simp [Writer.pendingDir, hpc]
  · simp [Writer.pendingState, hpc]

/-- A call leaves its direction and level to store, or changes neither. -/
theorem Node.Settling.call {n : Node} {k : Nat} {w : Writer} (h : n.Settling)
    (hk : n.writers[k]? = some w) (hpc : w.pc = .call) :
    Settling { n with
      pin := w.cmd.call n.pin
      writers := n.writers.set k ⟨w.cmd, .storeDir⟩ } := by
  have hlt := (List.getElem?_eq_some_iff.mp hk).1
  refine ⟨fun hw => ?_, fun ho hw => ?_⟩
  · have hnew := hw _ (List.mem_set hlt _)
    have hold := forall_mem_of_set hk (fun _ => by simp [Writer.pendingDir, hpc]) hw
    simp only [Writer.pendingDir, ite_true] at hnew
    rw [Command.call_dir hnew]
    exact h.dir hold
  · have hnew := hw _ (List.mem_set hlt _)
    have hold := forall_mem_of_set hk (fun _ => by simp [Writer.pendingState, hpc]) hw
    simp only [Writer.pendingState, true_or, ite_true] at hnew
    have hsame := Command.call_level hnew ho
    rw [hsame] at ho ⊢
    exact h.state ho hold

/-- A direction that the pin still has is stored. -/
theorem Node.Settling.storeDir {n : Node} {k : Nat} {w : Writer} (h : n.Settling)
    (hk : n.writers[k]? = some w) (hpc : w.pc = .storeDir)
    (hdir : ∀ d, w.cmd.wants = some d → d = n.pin.dir) :
    Settling { n with
      dev := { n.dev with dir := w.cmd.wants.getD n.dev.dir }
      writers := n.writers.set k ⟨w.cmd, .storeState⟩ } := by
  have hpend : w.pendingDir = w.cmd.wants := by simp [Writer.pendingDir, hpc]
  refine ⟨fun hw => ?_, fun ho hw => h.state ho (forall_mem_of_set hk (fun hp => ?_) hw)⟩
  · cases hwant : w.cmd.wants with
    | some d => exact hdir d hwant
    | none => exact h.dir (forall_mem_of_set hk (fun _ => by rw [hpend, hwant]) hw)
  · simpa [Writer.pendingState, hpc] using hp

/-- A level that the pin still drives is stored. -/
theorem Node.Settling.storeState {n : Node} {k : Nat} {w : Writer} (h : n.Settling)
    (hk : n.writers[k]? = some w) (hpc : w.pc = .storeState)
    (hstate : n.pin.dir = .output → ∀ l, w.cmd.drives = some l → l = n.pin.level) :
    Settling { n with
      dev := { n.dev with state := w.cmd.drives.getD n.dev.state }
      writers := n.writers.set k ⟨w.cmd, .done⟩ } := by
  have hpend : w.pendingState = w.cmd.drives := by simp [Writer.pendingState, hpc]
  refine ⟨fun hw => h.dir (forall_mem_of_set hk (fun _ => ?_) hw), fun ho hw => ?_⟩
  · simp [Writer.pendingDir, hpc]
  · cases hdrive : w.cmd.drives with
    | some l => exact hstate ho l hdrive
    | none => exact h.state ho (forall_mem_of_set hk (fun _ => by rw [hpend, hdrive]) hw)

/-- A step that is not stale keeps the record settling. -/
theorem Node.Settling.step {n n' : Node} {a : NodeAction} (h : n.Settling)
    (hg : ¬ n.Stale a) (hs : n.step a = some n') : n'.Settling := by
  cases a with
  | begin cmd =>
    cases hs
    exact ⟨fun hw => h.dir fun w hm => hw w (List.mem_append_left _ hm),
      fun ho hw => h.state ho fun w hm => hw w (List.mem_append_left _ hm)⟩
  | step k =>
    obtain ⟨w, hk, hadv⟩ := Option.bind_eq_some_iff.mp hs
    simp only [Stale, hk, Option.mem_some_iff, exists_eq_left', not_or] at hg
    obtain ⟨hdir, hstate⟩ := hg
    cases hpc : w.pc with
    | check =>
      simp only [advance, hpc, Option.some.injEq] at hadv
      subst hadv
      exact h.check hk hpc _
    | call =>
      simp only [advance, hpc, Option.some.injEq] at hadv
      subst hadv
      exact h.call hk hpc
    | storeDir =>
      simp only [advance, hpc, Option.some.injEq] at hadv
      subst hadv
      refine h.storeDir hk hpc fun d hd => Classical.not_not.mp fun hne => hdir ⟨d, ?_, hne⟩
      rw [Writer.pendingDir, if_pos hpc, hd]
      rfl
    | storeState =>
      simp only [advance, hpc, Option.some.injEq] at hadv
      subst hadv
      refine h.storeState hk hpc fun ho l hl =>
        Classical.not_not.mp fun hne => hstate ⟨hpc, ho, l, ?_, hne⟩
      rw [Writer.pendingState, if_pos (Or.inr hpc), hl]
      rfl
    | done => simp [advance, hpc] at hadv

/-- An idle node has nothing left to store. -/
theorem Node.Settling.agrees {n : Node} (h : n.Settling) (hi : n.Idle) : Agrees n.dev n.pin := by
  have hdir := h.dir fun w hw => by simp [Writer.pendingDir, hi w hw]
  exact ⟨hdir, fun ho => h.state (hdir ▸ ho) fun w hw => by simp [Writer.pendingState, hi w hw]⟩

/-- Whatever writes overlap on a node, a run without a stale store has record and pin in
agreement in every state in which no write is in progress. -/
theorem overlapping_writes_agree {n : Node} {as : List NodeAction} (h : Agrees n.dev n.pin)
    (hg : Along Node.step n as fun u a => ¬ u.Stale a) :
    Always Node.step n as fun u => u.Idle → Agrees u.dev u.pin := by
  have hset : n.Settling := ⟨fun _ => h.1, fun ho _ => h.2 (h.1.trans ho)⟩
  have hall : Always Node.step n as Node.Settling :=
    Always.of_along hg hset fun _ _ _ hi hga hs => hi.step hga hs
  exact fun pre t hpre ht => (hall pre t hpre ht).agrees

/-- A stale store leaves a false record behind. -/
theorem Node.Stale.disagrees {n n' : Node} {a : NodeAction} (h : n.Stale a)
    (hs : n.step a = some n') : ¬ Agrees n'.dev n'.pin := by
  cases a with
  | begin cmd => exact h.elim
  | step k =>
    obtain ⟨w, hk, hcases⟩ := h
    obtain ⟨v, hv, hadv⟩ := Option.bind_eq_some_iff.mp hs
    cases hk.symm.trans hv
    rcases hcases with ⟨d, hd, hne⟩ | ⟨hpc, ho, l, hl, hne⟩
    · by_cases hpc : w.pc = .storeDir
      · simp only [advance, hpc, Option.some.injEq] at hadv
        simp only [Writer.pendingDir, hpc, ite_true, Option.mem_def] at hd
        subst hadv
        rw [hd]
        exact fun ha => hne ha.1
      · simp [Writer.pendingDir, hpc] at hd
    · simp only [advance, hpc, Option.some.injEq] at hadv
      simp only [Writer.pendingState, hpc, or_true, ite_true, Option.mem_def] at hl
      subst hadv
      rw [hl]
      exact fun ha => hne (ha.2 (ha.1.trans ho))

/-- A command that its check lets through: what the switch does to record and pin. -/
theorem runCommand_of_not_skips {cmd : Command} {dev : GpioLkmDev}
    (h : cmd.skips dev = false) (gpio : Nat) (k : Kernel) :
    ∃ k' : Kernel, k'.pins gpio = cmd.call (k.pins gpio) ∧ runCommand cmd gpio 0 dev k =
      .ok (⟨cmd.drives.getD dev.state, cmd.wants.getD dev.dir⟩, k') := by
  have hcore : ¬ (0 : Int) < 0 := by omega
  cases cmd with
  | setIn =>
    have hd : dev.dir ≠ .input := of_decide_eq_false h
    rw [runCommand, if_pos hd]
    refine ⟨_, ?_, rfl⟩
    rw [gpioDirectionInput, gpioConfigure, if_neg hcore]
    exact Function.update_self _ _ _
  | setOut =>
    have hd : dev.dir ≠ .output := of_decide_eq_false h
    rw [runCommand, if_pos hd]
    refine ⟨_, ?_, rfl⟩
    rw [gpioDirectionOutput, gpioConfigure, if_neg hcore]
    exact Function.update_self _ _ _
  | setHigh | setLow =>
    have hd : dev.dir ≠ .input := of_decide_eq_false h
    rw [runCommand, if_neg hd]
    exact ⟨_, Function.update_self _ _ _, rfl⟩
  | na => cases h

/-- A command that its check ends has no effect in the switch. -/
theorem runCommand_of_skips {cmd : Command} {dev : GpioLkmDev} (h : cmd.skips dev = true)
    (gpio : Nat) (k : Kernel) :
    runCommand cmd gpio 0 dev k = .ok (dev, k) ∨ ∃ e, runCommand cmd gpio 0 dev k = .error e := by
  cases cmd with
  | setIn | setOut =>
    have hd := of_decide_eq_true h
    rw [runCommand, if_neg (fun hne => hne hd)]
    exact Or.inl rfl
  | setHigh | setLow =>
    have hd := of_decide_eq_true h
    rw [runCommand, if_pos hd]
    exact Or.inr ⟨_, rfl⟩
  | na => exact Or.inr ⟨_, rfl⟩

/-- A write that no other overlaps has the effect of the switch. -/
theorem Node.alone (cmd : Command) (gpio : Nat) (dev : GpioLkmDev) (k : Kernel) :
    ∃ m, exec Node.step ⟨dev, k.pins gpio, []⟩ (.begin cmd :: List.replicate m (.step 0)) =
      some (match runCommand cmd gpio 0 dev k with
        | .ok (dev', k') => ⟨dev', k'.pins gpio, [⟨cmd, .done⟩]⟩
        | .error _ => ⟨dev, k.pins gpio, [⟨cmd, .done⟩]⟩) := by
  cases hskip : cmd.skips dev with
  | true =>
    have hrun : exec Node.step ⟨dev, k.pins gpio, []⟩ [.begin cmd, .step 0] =
        some ⟨dev, k.pins gpio, [⟨cmd, if cmd.skips dev then .done else .call⟩]⟩ := rfl
    refine ⟨1, hrun.trans ?_⟩
    rw [hskip]
    rcases runCommand_of_skips hskip gpio k with he | ⟨e, he⟩ <;> rw [he] <;> rfl
  | false =>
    have hcheck : exec Node.step ⟨dev, k.pins gpio, []⟩
        (.begin cmd :: List.replicate 4 (.step 0)) =
        exec Node.step ⟨dev, k.pins gpio, [⟨cmd, if cmd.skips dev then .done else .call⟩]⟩
          (List.replicate 3 (.step 0)) := rfl
    have hrest : exec Node.step ⟨dev, k.pins gpio, [⟨cmd, .call⟩]⟩
        (List.replicate 3 (.step 0)) =
        some ⟨⟨cmd.drives.getD dev.state, cmd.wants.getD dev.dir⟩, cmd.call (k.pins gpio),
          [⟨cmd, .done⟩]⟩ := rfl
    obtain ⟨k', hpin, he⟩ := runCommand_of_not_skips hskip gpio k
    refine ⟨4, hcheck.trans ?_⟩
    rw [← hpin] at hrest
    rw [hskip, he]
    exact hrest

/-- A node as a load leaves it. -/
def Node.fresh : Node := ⟨⟨.low, .output⟩, ⟨.output, .low⟩, []⟩

/-- Two clients write `in` and `high`, step by step in turn, without a stale store. -/
def inTurn : List NodeAction :=
  [.begin .setIn, .begin .setHigh, .step 0, .step 1, .step 1, .step 0, .step 1, .step 0, .step 1,
    .step 0]

/-- Between the GPIO call and the store of one `in`, another client completes `in` and `out`. -/
def overtaken : List NodeAction :=
  [.begin .setIn, .step 0, .step 0, .begin .setIn, .step 1, .step 1, .step 1, .step 1,
    .begin .setOut, .step 2, .step 2, .step 2, .step 2, .step 0, .step 0]

/-- The theorem applies to a run with overlapping writes. -/
theorem overlapping_writes_agree_inTurn :
    Always Node.step .fresh inTurn fun u => u.Idle → Agrees u.dev u.pin :=
  overlapping_writes_agree (by decide) (along_of_check (by decide))

/-- Every write has returned, the record claims an input and the pin is an output. -/
theorem overtaken_disagrees :
    Agrees Node.fresh.dev Node.fresh.pin ∧
      ∃ t, Run Node.step .fresh overtaken t ∧ t.Idle ∧ ¬ Agrees t.dev t.pin := by
  have he : exec Node.step .fresh overtaken = some ⟨⟨.low, .input⟩, ⟨.output, .low⟩,
      [⟨.setIn, .done⟩, ⟨.setIn, .done⟩, ⟨.setOut, .done⟩]⟩ := by decide
  exact ⟨by decide, _, run_of_exec he, by decide, by decide⟩

end OsCourseLabs.Gpio
